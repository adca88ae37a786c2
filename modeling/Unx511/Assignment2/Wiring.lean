import Unx511.Assignment2.System

/-!
What one step of the system can do, and how the descriptors of networkMonitor,
the backlog and the connections stay consistent on every run.
-/

namespace Unx511.Assignment2

open Unx511.Machine

namespace ServerPc

/-- networkMonitor is in `cleanup_sockets` or has ended. -/
def inCleanup : ServerPc → Bool
  | sendShutDown _ | closeClient _ _ | closeMaster | exited => true
  | _ => false

/-- networkMonitor is not in the middle of an exchange with one client. -/
def idle : ServerPc → Bool
  | handle _ _ _ _ _ | closeClient _ _ => false
  | _ => true

end ServerPc

/-- What one step can do. -/
inductive Effect (cfg : Config) (s : State) : Action → State → Prop
  | goto {a : Action} {pc : ServerPc} (hact : ∀ fd, a ≠ .accept fd)
      (hfrom : s.server.pc.idle = true) (hstay : s.server.pc.inCleanup = false)
      (hto : pc.idle = true) (hended : pc ≠ .exited)
      (henter : pc.inCleanup = true → s.server.running = false)
      (hreceive : ∀ fd fds ready, pc = .receive fd fds ready → fd ∈ s.server.clientFds.keys) :
      Effect cfg s a (s.goto pc)
  | selectFails {set : Bool} {fds : List Nat} (hpc : s.server.pc = .select set fds) :
      Effect cfg s .selectFails { s.goto (.checkMaster set fds) with server.running := false }
  | fork {k : Nat} (hpc : s.server.pc = .fork k) (hk : k < cfg.names.length)
      (hunborn : (s.monitor k).pc = .unborn) :
      Effect cfg s .fork ((startMonitor k s).goto (.fork (k + 1)))
  | acceptNamed {fd k : Nat} {rest ready : List Nat} {name : String}
      (hpc : s.server.pc = .accept ready) (hbacklog : s.backlog = k :: rest)
      (hfd : s.server.peer fd = none)
      (hname : freeName cfg.names s.server.clientFds = some name) :
      Effect cfg s (.accept fd) {
        server := { s.server with
          pc := .snapshot ready
          clientFds := s.server.clientFds.set fd name
          peer := Function.update s.server.peer fd (some k) }
        backlog := rest
        monitor := Function.update s.monitor k { s.monitor k with link := .accepted } }
  | acceptRefused {fd k : Nat} {rest ready : List Nat} (hpc : s.server.pc = .accept ready)
      (hbacklog : s.backlog = k :: rest)
      (hname : freeName cfg.names s.server.clientFds = none) :
      Effect cfg s (.accept fd) {
        server := { s.server with pc := .snapshot ready }
        backlog := rest
        monitor := Function.update s.monitor k
          { s.monitor k with link := .closed, refused := true } }
  | receive {fd k : Nat} {message : String} {rest : List String} {fds ready : List Nat}
      (hpc : s.server.pc = .receive fd fds ready) (hpeer : s.server.peer fd = some k)
      (hup : (s.monitor k).up = message :: rest) :
      Effect cfg s .server ((s.setMonitor k { s.monitor k with up := rest }).goto
        (.handle fd k message fds ready))
  | drop {fd : Nat} {fds ready : List Nat} (hpc : s.server.pc = .receive fd fds ready)
      (hgone : ∀ k, s.server.peer fd = some k → (s.monitor k).pc.connected = false) :
      Effect cfg s .server ((s.dropClient fd).goto (.check fds ready))
  | handle {fd source : Nat} {message : String} {fds ready : List Nat}
      (hpc : s.server.pc = .handle fd source message fds ready) :
      Effect cfg s .server (handleMessage fd source message fds ready s)
  | tell {fd : Nat} {fds : List Nat} (hpc : s.server.pc = .sendShutDown (fd :: fds)) :
      Effect cfg s .server (s.serverSend fd "Shut Down" [] (.closeClient fd fds))
  | clear (hpc : s.server.pc = .sendShutDown []) :
      Effect cfg s .server { s.goto .closeMaster with server.clientFds := OrderedMap.empty }
  | closeClient {fd : Nat} {fds : List Nat} (hpc : s.server.pc = .closeClient fd fds) :
      Effect cfg s .server ((s.closeFd fd).goto (.sendShutDown fds))
  | exit (hpc : s.server.pc = .closeMaster) : Effect cfg s .server s.serverExit
  | sigintServer (hpc : s.server.pc ≠ .exited) : Effect cfg s .sigintServer (sigHandlerServer s)
  | launch {k : Nat} (hk : cfg.names.length ≤ k) (hunborn : (s.monitor k).pc = .unborn) :
      Effect cfg s (.launch k) (startMonitor k s)
  | exitMonitor {a : Action} {k : Nat} (hact : ∀ fd, a ≠ .accept fd)
      (hwhy : (s.monitor k).pc = .start ∨ (s.monitor k).pc = .connect ∨
        (s.monitor k).pc = .close ∨ (s.monitor k).link = .closed ∨ a = .die k)
      (hborn : (s.monitor k).pc ≠ .unborn) :
      Effect cfg s a (exitMonitor k s)
  | localStep {k : Nat} {operstate : String} {p : Process}
      (hlocal : (s.monitor k).process.localStep operstate = some p) :
      Effect cfg s (.monitor k operstate) (s.setMonitor k { s.monitor k with
        process := p
        linkUps := (s.monitor k).linkUps + if (s.monitor k).pc = .setLinkUp then 1 else 0 })
  | connect {k : Nat} (hpc : (s.monitor k).pc = .connect) (hmaster : s.server.masterOpen = true) :
      Effect cfg s (.connect k) { s.setMonitor k { s.monitor k with
          process := (s.monitor k).process.goto .sendReady
          link := .waiting } with
        backlog := s.backlog ++ [k] }
  | send {k : Nat} {message : String}
      (hout : Process.outgoing (s.monitor k).pc = some message)
      (hlink : (s.monitor k).link ≠ .closed) :
      Effect cfg s (.send k) (s.setMonitor k { s.monitor k with
        process := (s.monitor k).process.goto (Process.afterSend (s.monitor k).pc)
        up := (s.monitor k).up ++ [message]
        reports := (s.monitor k).reports + if message = "Link Down" then 1 else 0 })
  | recv {k : Nat} {message : String} {rest : List String} {p : Process}
      (hdown : (s.monitor k).down = message :: rest)
      (hrecv : (s.monitor k).process.afterRecv (.data message) = some p) :
      Effect cfg s (.recv k) (s.setMonitor k { s.monitor k with process := p, down := rest })
  | recvEnds {k : Nat} {r : Recv} {p : Process} (hr : r = .closed ∨ r = .failed)
      (hlink : (s.monitor k).link = .closed)
      (hrecv : (s.monitor k).process.afterRecv r = some p) :
      Effect cfg s (.recvEnds k r) (s.setMonitor k { s.monitor k with process := p })
  | interrupted {k : Nat} {p : Process} (hcfg : cfg.restarts = false)
      (hrecv : (s.monitor k).process.sigHandler.afterRecv .interrupted = some p) :
      Effect cfg s (.recvEnds k .interrupted) (s.setMonitor k { s.monitor k with process := p })
  | sigint {k : Nat} (hpc : (s.monitor k).pc ≠ .unborn) (hstart : (s.monitor k).pc ≠ .start) :
      Effect cfg s (.sigint k) (s.setMonitor k { s.monitor k with
        process := (s.monitor k).process.sigHandler })

/-- A step of the control flow that enters neither a receive nor the cleanup. -/
theorem Effect.within {cfg : Config} {s : State} {a : Action} {pc next : ServerPc}
    (hact : ∀ fd, a ≠ .accept fd) (hpc : s.server.pc = pc) (hfrom : pc.idle = true)
    (hstay : pc.inCleanup = false) (hto : next.idle = true) (hclean : next.inCleanup = false)
    (hreceive : ∀ fd fds ready, next ≠ .receive fd fds ready) :
    Effect cfg s a (s.goto next) := by
  apply Effect.goto hact (hpc ▸ hfrom) (hpc ▸ hstay) hto
  · rintro rfl
    cases hclean
  · intro h
    rw [hclean] at h
    cases h
  · exact fun fd fds ready h => absurd h (hreceive fd fds ready)

theorem receiveMessage_effect {cfg : Config} {s t : State} {fd : Nat} {fds ready : List Nat}
    (hpc : s.server.pc = .receive fd fds ready) (h : receiveMessage fd fds ready s = some t) :
    Effect cfg s .server t := by
  unfold receiveMessage at h
  split at h
  case h_1 hpeer =>
    cases h
    exact .drop hpc fun k hk => by rw [hpeer] at hk; cases hk
  case h_2 k hpeer =>
    split at h
    case h_1 message rest hup =>
      cases h
      exact .receive hpc hpeer hup
    case h_2 =>
      split at h
      case isTrue => cases h
      case isFalse hgone =>
        cases h
        apply Effect.drop hpc
        intro j hj
        rw [hpeer] at hj
        cases hj
        simpa using hgone

theorem serverStep_effect {cfg : Config} {s t : State} (h : serverStep cfg s = some t) :
    Effect cfg s .server t := by
  unfold serverStep at h
  split at h
  case h_1 k hpc =>
    split at h
    · cases h
      exact .within nofun hpc rfl rfl rfl rfl nofun
    · cases h
  case h_2 hpc =>
    cases h
    cases hrunning : s.server.running with
    | true => exact .within nofun hpc rfl rfl rfl rfl nofun
    | false =>
        exact .goto nofun (by rw [hpc]; rfl) (by rw [hpc]; rfl) rfl nofun (fun _ => hrunning) nofun
  case h_3 hpc =>
    cases h
    exact .within nofun hpc rfl rfl rfl rfl nofun
  case h_4 ready hpc =>
    cases h
    exact .within nofun hpc rfl rfl rfl rfl nofun
  case h_5 hpc =>
    cases h
    exact .within nofun hpc rfl rfl rfl rfl nofun
  case h_6 fd fds ready hpc =>
    cases h
    split
    case isTrue hvisit =>
      refine .goto nofun (by rw [hpc]; rfl) (by rw [hpc]; rfl) rfl nofun nofun ?_
      rintro _ _ _ ⟨⟩
      exact hvisit.2
    case isFalse => exact .within nofun hpc rfl rfl rfl rfl nofun
  case h_7 fd fds ready hpc => exact receiveMessage_effect hpc h
  case h_8 hpc =>
    cases h
    exact .handle hpc
  case h_9 hpc =>
    cases h
    exact .tell hpc
  case h_10 hpc =>
    cases h
    exact .clear hpc
  case h_11 hpc =>
    cases h
    exact .closeClient hpc
  case h_12 hpc =>
    cases h
    exact .exit hpc
  all_goals cases h

theorem accept_effect {cfg : Config} {s t : State} {fd : Nat} (h : accept cfg fd s = some t) :
    Effect cfg s (.accept fd) t := by
  unfold accept at h
  split at h
  case h_1 ready k rest hpc hbacklog =>
    split at h
    case isTrue hopen =>
      split at h
      case h_1 name hname =>
        cases h
        exact .acceptNamed hpc hbacklog hopen.2 hname
      case h_2 hname =>
        cases h
        exact .acceptRefused hpc hbacklog hname
    case isFalse => cases h
  case h_2 => cases h

theorem serverAction_effect {cfg : Config} {s t : State} {a : Action}
    (h : serverAction cfg s a = some t) : Effect cfg s a t := by
  cases a with
  | server => exact serverStep_effect h
  | accept fd => exact accept_effect h
  | fork =>
      simp only [serverAction, fork] at h
      split at h
      case h_1 k hpc =>
        split at h
        case isTrue hk =>
          cases h
          exact .fork hpc hk.1 hk.2
        case isFalse => cases h
      case h_2 => cases h
  | forkFails =>
      simp only [serverAction, forkFails] at h
      split at h
      case h_1 k hpc =>
        split at h
        · cases h
          exact .within nofun hpc rfl rfl rfl rfl nofun
        · cases h
      case h_2 => cases h
  | selectReturns master ready =>
      simp only [serverAction, selectReturns] at h
      split at h
      case h_1 hpc =>
        split at h
        · cases h
          exact .within nofun hpc rfl rfl rfl rfl nofun
        · cases h
      case h_2 => cases h
  | selectInterrupted =>
      simp only [serverAction] at h
      split at h
      case h_1 hpc =>
        cases h
        exact .within nofun hpc rfl rfl rfl rfl nofun
      case h_2 => cases h
  | selectFails =>
      simp only [serverAction, selectFails] at h
      split at h
      case h_1 hpc =>
        cases h
        exact .selectFails hpc
      case h_2 => cases h
  | checkMaster result =>
      simp only [serverAction, checkMaster] at h
      split at h
      case h_1 hpc =>
        split at h
        · cases h
          cases result <;> exact .within nofun hpc rfl rfl rfl rfl nofun
        · cases h
      case h_2 => cases h
  | acceptFails interrupted =>
      simp only [serverAction, acceptFails] at h
      split at h
      case h_1 hpc =>
        cases h
        cases interrupted <;> exact .within nofun hpc rfl rfl rfl rfl nofun
      case h_2 => cases h
  | receiveInterrupted =>
      simp only [serverAction, receiveInterrupted] at h
      split at h
      case h_1 hpc =>
        split at h
        · cases h
        · cases h
          exact .within nofun hpc rfl rfl rfl rfl nofun
      case h_2 => cases h
  | sigintServer =>
      simp only [serverAction] at h
      split at h
      case isTrue => cases h
      case isFalse hpc =>
        cases h
        exact .sigintServer hpc
  | _ => cases h

theorem recvEnds_effect {cfg : Config} {s t : State} {k : Nat} {r : Recv}
    (h : recvEnds cfg k r s = some t) : Effect cfg s (.recvEnds k r) t := by
  unfold recvEnds at h
  split at h
  case h_1 | h_2 =>
    split at h
    case isTrue hlink =>
      obtain ⟨p, hrecv, rfl⟩ := Option.map_eq_some_iff.mp h
      exact .recvEnds (by simp) hlink hrecv
    case isFalse => cases h
  case h_3 =>
    split at h
    case isTrue => cases h
    case isFalse hcfg =>
      obtain ⟨p, hrecv, rfl⟩ := Option.map_eq_some_iff.mp h
      exact .interrupted (by simpa using hcfg) hrecv
  case h_4 => cases h

theorem monitorAction_effect {cfg : Config} {s t : State} {a : Action}
    (h : monitorAction cfg s a = some t) : Effect cfg s a t := by
  cases a with
  | launch k =>
      simp only [monitorAction] at h
      split at h
      case isTrue hk =>
        cases h
        exact .launch hk.1 hk.2
      case isFalse => cases h
  | fails k =>
      simp only [monitorAction] at h
      split at h
      case isTrue hpc =>
        cases h
        refine Effect.exitMonitor nofun ?_ ?_
        · rcases hpc with hstart | hconnect
          · exact .inl hstart
          · exact .inr (.inl hconnect)
        · rcases hpc with hpc | hpc <;> rw [hpc] <;> nofun
      case isFalse => cases h
  | monitor k operstate =>
      obtain ⟨p, hlocal, rfl⟩ := Option.map_eq_some_iff.mp h
      exact .localStep hlocal
  | connect k =>
      simp only [monitorAction, connect] at h
      split at h
      case isTrue hpc =>
        cases h
        exact .connect hpc.1 hpc.2.1
      case isFalse => cases h
  | send k =>
      obtain ⟨message, hout, ht⟩ := Option.map_eq_some_iff.mp h
      split at ht
      case isTrue hlink =>
        subst ht
        refine Effect.exitMonitor nofun (.inr (.inr (.inr (.inl hlink)))) ?_
        intro hpc
        rw [hpc] at hout
        cases hout
      case isFalse hlink =>
        subst ht
        exact .send hout hlink
  | recv k =>
      simp only [monitorAction, recvMonitor] at h
      split at h
      case h_1 message rest hdown =>
        obtain ⟨p, hrecv, rfl⟩ := Option.map_eq_some_iff.mp h
        exact .recv hdown hrecv
      case h_2 => cases h
  | recvEnds k r => exact recvEnds_effect h
  | close k =>
      simp only [monitorAction] at h
      split at h
      case isTrue hpc =>
        cases h
        exact .exitMonitor nofun (.inr (.inr (.inl hpc))) (by rw [hpc]; nofun)
      case isFalse => cases h
  | sigint k =>
      simp only [monitorAction, sigintMonitor] at h
      split at h
      · cases h
      · cases h
      case h_3 hpc =>
        cases h
        exact .exitMonitor nofun (.inl hpc) (by rw [hpc]; nofun)
      case h_4 hunborn _ hstart =>
        cases h
        exact .sigint hunborn hstart
  | die k =>
      simp only [monitorAction] at h
      split at h
      case isTrue => cases h
      case isFalse hpc =>
        cases h
        exact .exitMonitor nofun (by simp) fun hunborn => hpc (.inl hunborn)
  | _ => cases h

theorem step_effect {cfg : Config} {s t : State} {a : Action} (h : step cfg s a = some t) :
    Effect cfg s a t := by
  rcases Option.or_eq_some_iff.mp h with hserver | ⟨_, hmonitor⟩
  · exact serverAction_effect hserver
  · exact monitorAction_effect hmonitor

/-- Descriptors and accepted connections correspond one to one, and the backlog
lists connections that are waiting. -/
structure Wired (peer : Nat → Option Nat) (link : Nat → Link) (backlog : List Nat) : Prop where
  accepted : ∀ fd k, peer fd = some k → link k = .accepted
  injective : ∀ fd fd' k, peer fd = some k → peer fd' = some k → fd = fd'
  waiting : ∀ k ∈ backlog, link k = .waiting
  nodup : backlog.Nodup

namespace Wired

variable {peer : Nat → Option Nat} {link : Nat → Link} {backlog rest : List Nat} {fd k : Nat}

theorem not_mem_of_peer (h : Wired peer link backlog) (hfd : peer fd = some k) : k ∉ backlog := by
  intro hmem
  have hwaiting := h.waiting k hmem
  rw [h.accepted fd k hfd] at hwaiting
  cases hwaiting

/-- A change to a connection that is not accepted leaves the accepted ones alone. -/
theorem accepted_update {l : Link} (h : Wired peer link backlog) (hk : link k ≠ .accepted) :
    ∀ f j, peer f = some j → Function.update link k l j = .accepted := by
  intro f j hj
  have haccepted := h.accepted f j hj
  have hne : j ≠ k := fun heq => hk (heq ▸ haccepted)
  rw [Function.update_of_ne hne]
  exact haccepted

theorem head_waiting (h : Wired peer link (k :: rest)) : link k = .waiting :=
  h.waiting k List.mem_cons_self

theorem head_not_accepted (h : Wired peer link (k :: rest)) : link k ≠ .accepted := by
  rw [h.head_waiting]
  nofun

/-- A change to the first waiting connection leaves the others alone. -/
theorem rest_waiting {l : Link} (h : Wired peer link (k :: rest)) :
    ∀ j ∈ rest, Function.update link k l j = .waiting := by
  intro j hj
  have hne : j ≠ k := fun heq => (List.nodup_cons.mp h.nodup).1 (heq ▸ hj)
  rw [Function.update_of_ne hne]
  exact h.waiting j (List.mem_cons_of_mem k hj)

theorem accept (h : Wired peer link (k :: rest)) (hfd : peer fd = none) :
    Wired (Function.update peer fd (some k)) (Function.update link k .accepted) rest := by
  have hnew : ∀ f j, Function.update peer fd (some k) f = some j →
      (f = fd ∧ j = k) ∨ (peer f = some j ∧ j ≠ k) := by
    intro f j hf
    rcases eq_or_ne f fd with rfl | hne
    · rw [Function.update_self] at hf
      cases hf
      exact .inl ⟨rfl, rfl⟩
    · rw [Function.update_of_ne hne] at hf
      refine .inr ⟨hf, ?_⟩
      rintro rfl
      exact h.not_mem_of_peer hf List.mem_cons_self
  refine ⟨?_, ?_, h.rest_waiting, (List.nodup_cons.mp h.nodup).2⟩
  · intro f j hf
    rcases hnew f j hf with ⟨_, rfl⟩ | ⟨hold, _⟩
    · rw [Function.update_self]
    · exact h.accepted_update h.head_not_accepted f j hold
  · intro f f' j hf hf'
    rcases hnew f j hf with ⟨hfd', hj⟩ | ⟨hold, hj⟩ <;>
      rcases hnew f' j hf' with ⟨hfd'', hj'⟩ | ⟨hold', hj'⟩
    · rw [hfd', hfd'']
    · exact absurd hj hj'
    · exact absurd hj' hj
    · exact h.injective f f' j hold hold'

theorem refuse (h : Wired peer link (k :: rest)) :
    Wired peer (Function.update link k .closed) rest :=
  ⟨h.accepted_update h.head_not_accepted, h.injective, h.rest_waiting,
    (List.nodup_cons.mp h.nodup).2⟩

theorem close (h : Wired peer link backlog) (hfd : peer fd = some k) :
    Wired (Function.update peer fd none) (Function.update link k .closed) backlog := by
  have hold : ∀ f j, Function.update peer fd none f = some j → f ≠ fd ∧ peer f = some j := by
    intro f j hf
    rcases eq_or_ne f fd with rfl | hne
    · rw [Function.update_self] at hf
      cases hf
    · rw [Function.update_of_ne hne] at hf
      exact ⟨hne, hf⟩
  refine ⟨?_, ?_, ?_, h.nodup⟩
  · intro f j hf
    obtain ⟨hne, hj⟩ := hold f j hf
    have hjk : j ≠ k := fun h' => hne (h.injective f fd k (h' ▸ hj) hfd)
    rw [Function.update_of_ne hjk]
    exact h.accepted f j hj
  · intro f f' j hf hf'
    exact h.injective f f' j (hold f j hf).2 (hold f' j hf').2
  · intro j hj
    have hne : j ≠ k := by
      rintro rfl
      exact h.not_mem_of_peer hfd hj
    rw [Function.update_of_ne hne]
    exact h.waiting j hj

theorem connect (h : Wired peer link backlog) (hk : link k = .none) :
    Wired peer (Function.update link k .waiting) (backlog ++ [k]) := by
  have hmem : k ∉ backlog := by
    intro hmem
    rw [h.waiting k hmem] at hk
    cases hk
  refine ⟨h.accepted_update (by rw [hk]; nofun), h.injective, ?_, ?_⟩
  · intro j hj
    rcases eq_or_ne j k with rfl | hne
    · rw [Function.update_self]
    · rw [Function.update_of_ne hne]
      rcases List.mem_append.mp hj with hold | hnew
      · exact h.waiting j hold
      · exact absurd (List.mem_singleton.mp hnew) hne
  · rw [List.nodup_append]
    refine ⟨h.nodup, List.nodup_singleton k, ?_⟩
    rintro j hj _ hk' rfl
    exact hmem (List.mem_singleton.mp hk' ▸ hj)

theorem closeMaster (h : Wired peer link backlog) :
    Wired peer (fun j => if j ∈ backlog then .closed else link j) [] := by
  refine ⟨?_, h.injective, nofun, List.nodup_nil⟩
  intro f j hj
  rw [if_neg (h.not_mem_of_peer hj)]
  exact h.accepted f j hj

theorem exit : Wired (fun _ => none) link [] := ⟨nofun, nofun, nofun, List.nodup_nil⟩

end Wired

def State.links (s : State) (k : Nat) : Link := (s.monitor k).link

/-- What holds on every run. -/
structure Consistent (s : State) : Prop where
  wired : Wired s.server.peer s.links s.backlog
  early : ∀ k, (s.monitor k).pc.early = true → (s.monitor k).link = .none
  handling : ∀ fd source message fds ready, s.server.pc = .handle fd source message fds ready →
    s.server.peer fd = some source
  ended : s.server.pc = .exited → s.server.masterOpen = false ∧
    ∀ k, (s.monitor k).link = .none ∨ (s.monitor k).link = .closed

theorem links_of_monitor {s t : State} {k : Nat} {m : Monitor}
    (h : t.monitor = Function.update s.monitor k m) :
    t.links = Function.update s.links k m.link := by
  funext j
  unfold State.links
  rw [h]
  rcases eq_or_ne j k with rfl | hne
  · simp
  · simp [hne]

theorem hangUp_link {m : Monitor} (h : m.link ≠ .none) : m.hangUp.link = .closed := by
  unfold Monitor.hangUp
  rw [if_neg h]

theorem hangUp_process (m : Monitor) : m.hangUp.process = m.process := by
  unfold Monitor.hangUp
  split <;> rfl

theorem hangUp_link_cases (m : Monitor) : m.hangUp.link = .none ∨ m.hangUp.link = .closed := by
  by_cases h : m.link = .none
  · left
    unfold Monitor.hangUp
    rw [if_pos h, h]
  · exact .inr (hangUp_link h)

theorem localStep_early {p q : Process} {operstate : String}
    (h : p.localStep operstate = some q) (hearly : q.pc.early = true) : p.pc.early = true := by
  rcases Process.localStep_cases h with ⟨hstart, _⟩ | ⟨_, _, hloop, _⟩
  · rw [hstart]
    rfl
  · rw [show q.pc.early = false by revert hloop; cases q.pc <;> decide] at hearly
    cases hearly

theorem afterSend_not_early {pc : MonitorPc} {message : String}
    (h : Process.outgoing pc = some message) : (Process.afterSend pc).early = false := by
  cases pc <;> first | rfl | cases h

theorem afterRecv_not_early {p q : Process} {r : Recv} (h : p.afterRecv r = some q) :
    q.pc.early ≠ true := by
  rcases Process.afterRecv_cases h with ⟨_, ⟨_, hpc⟩ | ⟨_, hpc, _⟩⟩ | ⟨_, ⟨_, hpc⟩ | ⟨_, hpc⟩⟩ <;>
    rw [hpc] <;> nofun

namespace Consistent

variable {s t : State} {k fd : Nat} {m : Monitor} {pc : ServerPc}

theorem initial (running : Bool) : Consistent (State.initial running) where
  wired := ⟨nofun, nofun, nofun, List.nodup_nil⟩
  early := fun _ _ => rfl
  handling := nofun
  ended := nofun

/-- A step of monitor `k` that keeps its connection as it is. -/
theorem setMonitor (h : Consistent s) (hlink : m.link = (s.monitor k).link)
    (hearly : m.pc.early = true → (s.monitor k).pc.early = true) :
    Consistent (s.setMonitor k m) := by
  have hlinks : (s.setMonitor k m).links = s.links := by
    rw [links_of_monitor (s := s) rfl, hlink]
    exact Function.update_eq_self k s.links
  have hmonitor : ∀ j, ((s.setMonitor k m).monitor j).link = (s.monitor j).link := by
    intro j
    exact congrFun hlinks j
  refine ⟨?_, ?_, h.handling, ?_⟩
  · rw [hlinks]
    exact h.wired
  · intro j hj
    rw [hmonitor]
    apply h.early
    rcases eq_or_ne j k with rfl | hne
    · exact hearly (by simpa [State.setMonitor] using hj)
    · simpa [State.setMonitor, hne] using hj
  · intro hexited
    refine ⟨(h.ended hexited).1, fun j => ?_⟩
    rw [hmonitor]
    exact (h.ended hexited).2 j

theorem goto (h : Consistent s)
    (hhandle : ∀ fd source message fds ready, pc = .handle fd source message fds ready →
      s.server.peer fd = some source)
    (hended : pc = .exited → s.server.pc = .exited) : Consistent (s.goto pc) :=
  ⟨h.wired, h.early, hhandle, fun hpc => h.ended (hended hpc)⟩

/-- The registry of names and the history do not matter here. -/
theorem congr (h : Consistent s) (hpeer : t.server.peer = s.server.peer)
    (hmonitor : t.monitor = s.monitor) (hbacklog : t.backlog = s.backlog)
    (hpc : t.server.pc = s.server.pc) (hmaster : t.server.masterOpen = s.server.masterOpen) :
    Consistent t := by
  have hlinks : t.links = s.links := by
    unfold State.links
    rw [hmonitor]
  refine ⟨?_, ?_, ?_, ?_⟩
  · rw [hpeer, hlinks, hbacklog]
    exact h.wired
  · rw [hmonitor]
    exact h.early
  · rw [hpc, hpeer]
    exact h.handling
  · rw [hpc, hmaster, hmonitor]
    exact h.ended

theorem peer_link (h : Consistent s) (hfd : s.server.peer fd = some k) :
    (s.monitor k).link = .accepted :=
  h.wired.accepted fd k hfd

/-- A monitor with a connection is not early, so its connection may change. -/
theorem early_update (h : Consistent s) (hlink : (s.monitor k).link ≠ .none)
    (hpc : m.pc = (s.monitor k).pc) {j : Nat}
    (hj : (Function.update s.monitor k m j).pc.early = true) :
    (Function.update s.monitor k m j).link = .none := by
  rcases eq_or_ne j k with rfl | hne
  · rw [Function.update_self, hpc] at hj
    exact absurd (h.early j hj) hlink
  · rw [Function.update_of_ne hne] at hj ⊢
    exact h.early j hj

/-- The first monitor of the backlog has one. -/
theorem early_head {rest : List Nat} (h : Consistent s) (hbacklog : s.backlog = k :: rest)
    (hpc : m.pc = (s.monitor k).pc) (j : Nat)
    (hj : (Function.update s.monitor k m j).pc.early = true) :
    (Function.update s.monitor k m j).link = .none := by
  have hwired := h.wired
  rw [hbacklog] at hwired
  have hopen : (s.monitor k).link ≠ .none := by
    rw [show (s.monitor k).link = .waiting from hwired.head_waiting]
    nofun
  exact h.early_update hopen hpc hj

/-- A descriptor is closed and networkMonitor goes on. -/
theorem closeFd (h : Consistent s) (hidle : pc.idle = true) (hexited : pc ≠ .exited) :
    Consistent ((s.closeFd fd).goto pc) := by
  have hhandle : ∀ fd source message fds ready, pc ≠ .handle fd source message fds ready := by
    rintro _ _ _ _ _ rfl
    cases hidle
  unfold State.closeFd
  split
  case h_1 k hfd =>
    have hlink : (s.monitor k).hangUp.link = .closed := by
      apply hangUp_link
      rw [h.peer_link hfd]
      nofun
    refine ⟨?_, ?_, ?_, fun hpc => absurd hpc hexited⟩
    · have hwired := h.wired.close hfd
      rw [← hlink] at hwired
      rw [links_of_monitor (s := s) rfl]
      exact hwired
    · have hopen : (s.monitor k).link ≠ .none := by
        rw [h.peer_link hfd]
        nofun
      intro j hj
      refine h.early_update hopen ?_ hj
      exact congrArg Process.pc (hangUp_process (s.monitor k))
    · exact fun fd source message fds ready hpc => absurd hpc (hhandle fd source message fds ready)
  case h_2 =>
    exact h.goto (fun fd source message fds ready hpc =>
      absurd hpc (hhandle fd source message fds ready)) fun hpc => absurd hpc hexited

theorem serverExit (h : Consistent s) : Consistent s.serverExit where
  wired := Wired.exit
  early := by
    intro k hk
    have hearly : (s.monitor k).pc.early = true := by
      simpa [State.serverExit, Monitor.pc, hangUp_process] using hk
    change (s.monitor k).hangUp.link = .none
    unfold Monitor.hangUp
    rw [if_pos (h.early k hearly)]
    exact h.early k hearly
  handling := nofun
  ended := fun _ => ⟨rfl, fun k => hangUp_link_cases (s.monitor k)⟩

theorem serverSend {message : String} {sources : List Nat} (h : Consistent s)
    (hhandle : ∀ fd source message fds ready, pc ≠ .handle fd source message fds ready)
    (hexited : pc ≠ .exited) : Consistent (s.serverSend fd message sources pc) := by
  unfold State.serverSend
  split
  case h_1 k hfd =>
    split
    · have hset : Consistent (s.setMonitor k ((s.monitor k).told message sources)) :=
        h.setMonitor rfl id
      exact hset.goto (fun fd source message fds ready hpc =>
        absurd hpc (hhandle fd source message fds ready)) fun hpc => absurd hpc hexited
    · exact h.serverExit
  case h_2 =>
    exact h.goto (fun fd source message fds ready hpc =>
      absurd hpc (hhandle fd source message fds ready)) fun hpc => absurd hpc hexited

theorem closeMaster (h : Consistent s) : Consistent s.closeMaster := by
  have hlink : ∀ k, (s.closeMaster.monitor k).link =
      if k ∈ s.backlog then .closed else (s.monitor k).link := by
    intro k
    change (if k ∈ s.backlog then (s.monitor k).hangUp else s.monitor k).link = _
    split
    case isTrue hmem =>
      apply hangUp_link
      rw [show (s.monitor k).link = .waiting from h.wired.waiting k hmem]
      nofun
    case isFalse => rfl
  have hlinks : s.closeMaster.links =
      fun k => if k ∈ s.backlog then .closed else s.links k := funext hlink
  have hpc : ∀ k, (s.closeMaster.monitor k).pc = (s.monitor k).pc := by
    intro k
    change (if k ∈ s.backlog then (s.monitor k).hangUp else s.monitor k).process.pc = _
    split
    · rw [hangUp_process]
      rfl
    · rfl
  refine ⟨?_, ?_, h.handling, ?_⟩
  · rw [hlinks]
    exact h.wired.closeMaster
  · intro k hk
    rw [hpc] at hk
    have hnone := h.early k hk
    rw [hlink, if_neg, hnone]
    intro hmem
    rw [show (s.monitor k).link = .waiting from h.wired.waiting k hmem] at hnone
    cases hnone
  · intro hexited
    refine ⟨rfl, fun k => ?_⟩
    rw [hlink]
    split
    · exact .inr rfl
    · exact (h.ended hexited).2 k

theorem sigHandlerServer (h : Consistent s) : Consistent (sigHandlerServer s) := by
  have hstop : Consistent { s with server.running := false } := h.congr rfl rfl rfl rfl rfl
  unfold Assignment2.sigHandlerServer
  split
  · exact hstop.closeMaster
  · exact hstop

theorem acceptNamed {name : String} {rest ready : List Nat} (h : Consistent s)
    (hbacklog : s.backlog = k :: rest) (hfd : s.server.peer fd = none) :
    Consistent {
      server := { s.server with
        pc := .snapshot ready
        clientFds := s.server.clientFds.set fd name
        peer := Function.update s.server.peer fd (some k) }
      backlog := rest
      monitor := Function.update s.monitor k { s.monitor k with link := .accepted } } := by
  have hwired := h.wired
  rw [hbacklog] at hwired
  refine ⟨?_, ?_, nofun, nofun⟩
  · rw [links_of_monitor (s := s) rfl]
    exact hwired.accept hfd
  · exact h.early_head hbacklog rfl

theorem acceptRefused {rest ready : List Nat} (h : Consistent s)
    (hbacklog : s.backlog = k :: rest) :
    Consistent {
      server := { s.server with pc := .snapshot ready }
      backlog := rest
      monitor := Function.update s.monitor k
        { s.monitor k with link := .closed, refused := true } } := by
  have hwired := h.wired
  rw [hbacklog] at hwired
  refine ⟨?_, ?_, nofun, nofun⟩
  · rw [links_of_monitor (s := s) rfl]
    exact hwired.refuse
  · exact h.early_head hbacklog rfl

theorem connect (h : Consistent s) (hearly : (s.monitor k).pc.early = true)
    (hmaster : s.server.masterOpen = true) :
    Consistent { s.setMonitor k { s.monitor k with
        process := (s.monitor k).process.goto .sendReady
        link := .waiting } with
      backlog := s.backlog ++ [k] } := by
  refine ⟨?_, ?_, h.handling, ?_⟩
  · rw [links_of_monitor (s := s) rfl]
    exact h.wired.connect (h.early k hearly)
  · intro j hj
    rcases eq_or_ne j k with rfl | hne
    · simp [State.setMonitor, Monitor.pc, MonitorPc.early] at hj
    · have hold : (s.monitor j).pc.early = true := by
        simpa [State.setMonitor, hne] using hj
      simpa [State.setMonitor, hne] using h.early j hold
  · intro hexited
    have hclosed := (h.ended hexited).1
    rw [show s.server.masterOpen = true from hmaster] at hclosed
    cases hclosed

theorem handleMessage {source : Nat} {message : String} {fds ready : List Nat}
    (h : Consistent s) : Consistent (handleMessage fd source message fds ready s) := by
  have hsub : Consistent { s with server.clientFds := (subscript s.server.clientFds fd).2 } :=
    h.congr rfl rfl rfl rfl rfl
  have hcheck : Consistent (s.goto (.check fds ready)) := h.goto nofun nofun
  unfold Assignment2.handleMessage
  split
  · exact hsub.serverSend nofun nofun
  · exact hcheck.congr rfl rfl rfl rfl rfl
  · refine Consistent.serverSend ?_ nofun nofun
    exact h.congr rfl rfl rfl rfl rfl
  · have hclosed : Consistent ((State.closeFd _ fd).goto (.check fds ready)) :=
      hsub.closeFd rfl nofun
    exact hclosed.congr rfl rfl rfl rfl rfl
  · exact hcheck.congr rfl rfl rfl rfl rfl

theorem effect {cfg : Config} {a : Action} (h : Consistent s) (heffect : Effect cfg s a t) :
    Consistent t := by
  cases heffect with
  | goto _ _ _ hto hended _ _ =>
      apply h.goto
      · rintro _ _ _ _ _ rfl
        cases hto
      · exact fun hpc => absurd hpc hended
  | @selectFails set fds _ =>
      have hgoto : Consistent (s.goto (.checkMaster set fds)) := h.goto nofun nofun
      exact hgoto.congr rfl rfl rfl rfl rfl
  | @fork k _ _ hunborn =>
      have hstart : Consistent (startMonitor k s) :=
        h.setMonitor rfl fun _ => by rw [hunborn]; rfl
      exact hstart.goto nofun nofun
  | acceptNamed _ hbacklog hfd _ => exact h.acceptNamed hbacklog hfd
  | acceptRefused _ hbacklog _ => exact h.acceptRefused hbacklog
  | @receive fd k _ rest _ _ _ hpeer _ =>
      have hset : Consistent (s.setMonitor k { s.monitor k with up := rest }) :=
        h.setMonitor rfl id
      apply hset.goto
      · rintro _ _ _ _ _ ⟨⟩
        exact hpeer
      · nofun
  | @drop fd fds ready _ _ =>
      have hclosed : Consistent ((s.closeFd fd).goto (.check fds ready)) := h.closeFd rfl nofun
      exact hclosed.congr rfl rfl rfl rfl rfl
  | handle _ => exact h.handleMessage
  | tell _ => exact h.serverSend nofun nofun
  | clear _ =>
      have hgoto : Consistent (s.goto .closeMaster) := h.goto nofun nofun
      exact hgoto.congr rfl rfl rfl rfl rfl
  | closeClient _ => exact h.closeFd rfl nofun
  | exit _ => exact h.serverExit
  | sigintServer _ => exact h.sigHandlerServer
  | @launch k _ hunborn => exact h.setMonitor rfl fun _ => by rw [hunborn]; rfl
  | exitMonitor _ _ _ => exact h.setMonitor rfl nofun
  | localStep hlocal =>
      refine h.setMonitor rfl fun hearly => ?_
      exact localStep_early hlocal hearly
  | connect hpc hmaster => exact h.connect (by rw [hpc]; rfl) hmaster
  | @send k message hout _ =>
      refine h.setMonitor rfl fun hearly => ?_
      have hafter : (Process.afterSend (s.monitor k).pc).early = true := hearly
      rw [afterSend_not_early hout] at hafter
      cases hafter
  | recv _ hrecv => exact h.setMonitor rfl fun hearly => absurd hearly (afterRecv_not_early hrecv)
  | recvEnds _ _ hrecv =>
      exact h.setMonitor rfl fun hearly => absurd hearly (afterRecv_not_early hrecv)
  | interrupted _ hrecv =>
      exact h.setMonitor rfl fun hearly => absurd hearly (afterRecv_not_early hrecv)
  | sigint _ _ => exact h.setMonitor rfl id

end Consistent

/-- Every state reached is consistent, whatever the processes do. -/
theorem consistent {cfg : Config} {cond : State → Action → Prop} {running : Bool} {s : State}
    (h : Reaches (step cfg) cond (State.initial running) s) : Consistent s :=
  h.invariant (Consistent.initial running) fun _ _ _ hold _ hstep =>
    hold.effect (step_effect hstep)

end Unx511.Assignment2
