import Unx511.Assignment2.Session
import Unx511.Machine.Termination

/-!
The end of a run. Ctrl-C in the terminal reaches networkMonitor and its monitors; nobody
else has to tell them to stop. From then on each process has only so many statements left,
and whoever waits in `recv` waits for one that goes on.
-/

namespace Unx511.Assignment2.Shutdown

open Unx511.Machine

/-- networkMonitor and the monitors connected to it have handled SIGINT, and networkMonitor
has closed its master socket with that. A SIGINT during the prompts, before there is such a
socket, is left out. -/
structure Interrupted (s : State) : Prop where
  running : s.server.running = false
  masterOpen : s.server.masterOpen = false
  monitors : ∀ k, (s.monitor k).pc.connected = true → (s.monitor k).process.running = false

/-- No more SIGINT comes, and nobody else starts or ends a monitor. -/
def Quiet (_ : State) : Action → Prop
  | .sigintServer | .launch _ | .sigint _ | .die _ => False
  | _ => True

def Finished (s : State) : Prop :=
  s.server.pc = .exited ∧ ∀ k, (s.monitor k).pc = .unborn ∨ (s.monitor k).pc = .exited

/-! The statements that each process has left. -/

/-- Of a monitor that leaves its loop at the next test, or finds nobody to connect to. -/
def monitorRank : MonitorPc → Nat
  | .start => 14
  | .connect => 13
  | .sendReady => 12
  | .awaitMonitor => 11
  | .sendMonitoring => 10
  | .poll => 9
  | .sendLinkDown => 8
  | .awaitCommand => 7
  | .setLinkUp => 6
  | .report => 5
  | .test => 3
  | .sendDone => 2
  | .close => 1
  | .unborn | .exited => 0

/-- Of networkMonitor with `clients` entries in `client_fds`; every name still to be forked
pays for its monitor. -/
def pcRank (names clients : Nat) : ServerPc → Nat
  | .fork k => 15 * (names - k) + (2 * clients + 4)
  | .fill => 5 * clients + 9
  | .select _ _ => 5 * clients + 8
  | .checkMaster _ _ => 5 * clients + 7
  | .accept _ => 5 * clients + 6
  | .snapshot _ => 5 * clients + 5
  | .receive _ fds _ => 3 * fds.length + 2 * clients + 6
  | .handle _ _ _ fds _ => 3 * fds.length + 2 * clients + 5
  | .check fds _ => 3 * fds.length + 2 * clients + 4
  | .test => 2 * clients + 3
  | .closeClient _ fds => 2 * fds.length + 3
  | .sendShutDown fds => 2 * fds.length + 2
  | .closeMaster => 1
  | .exited => 0

def serverRank (cfg : Config) (server : Server) : Nat :=
  pcRank cfg.names.length server.clientFds.keys.length server.pc

/-- Of the first `n` monitors. -/
def monitorsRank (n : Nat) (s : State) : Nat :=
  totalRank (fun m : Monitor => monitorRank m.pc) fun i : Fin n => s.monitor i

def rank (cfg : Config) (n : Nat) (s : State) : Nat := serverRank cfg s.server + monitorsRank n s

section

variable {cfg : Config} {n k fd : Nat} {s t : State} {m : Monitor}

theorem monitorsRank_congr (h : ∀ k, (t.monitor k).process = (s.monitor k).process) :
    monitorsRank n t = monitorsRank n s := by
  unfold monitorsRank totalRank
  refine Finset.sum_congr rfl fun i _ => ?_
  have hpc : (t.monitor i).pc = (s.monitor i).pc := congrArg Process.pc (h i)
  exact congrArg monitorRank hpc

theorem monitorsRank_update (hk : k < n) (h : t.monitor = Function.update s.monitor k m) :
    monitorsRank n t + monitorRank (s.monitor k).pc = monitorsRank n s + monitorRank m.pc := by
  have hloc : (fun i : Fin n => t.monitor i) =
      Function.update (fun i : Fin n => s.monitor i) ⟨k, hk⟩ m := by
    funext i
    rw [h]
    rcases eq_or_ne i ⟨k, hk⟩ with rfl | hne
    · simp
    · have hval : (i : Nat) ≠ k := fun heq => hne (Fin.ext heq)
      rw [Function.update_of_ne hne, Function.update_of_ne hval]
  unfold monitorsRank
  rw [hloc]
  exact totalRank_update (fun m : Monitor => monitorRank m.pc) _ (⟨k, hk⟩ : Fin n) m

theorem pcRank_mono {names clients clients' : Nat} (h : clients' ≤ clients) (pc : ServerPc) :
    pcRank names clients' pc ≤ pcRank names clients pc := by
  cases pc <;> simp only [pcRank] <;> omega

theorem length_keys_erase_le (clientFds : OrderedMap Nat String) (fd : Nat) :
    (clientFds.erase fd).keys.length ≤ clientFds.keys.length := by
  apply List.Subperm.length_le
  apply List.subperm_of_subset (clientFds.erase fd).keys_nodup
  intro f hf
  exact (OrderedMap.mem_keys_erase.mp hf).1

/-- networkMonitor goes on, and no monitor does. -/
structure Advances (cfg : Config) (s t : State) : Prop where
  rank : serverRank cfg t.server < serverRank cfg s.server
  processes : ∀ k, (t.monitor k).process = (s.monitor k).process

theorem Advances.goto {pc next : ServerPc} (hpc : s.server.pc = pc)
    (hlt : pcRank cfg.names.length s.server.clientFds.keys.length next <
      pcRank cfg.names.length s.server.clientFds.keys.length pc) :
    Advances cfg s (s.goto next) := by
  refine ⟨?_, fun _ => rfl⟩
  unfold serverRank
  rw [hpc]
  exact hlt

theorem Advances.sent {message : String} {sources : List Nat} {pc next : ServerPc}
    (h : Sent s fd message sources next t) (hpc : s.server.pc = pc)
    (hlt : pcRank cfg.names.length s.server.clientFds.keys.length next <
      pcRank cfg.names.length s.server.clientFds.keys.length pc) : Advances cfg s t := by
  refine ⟨?_, h.process⟩
  obtain ⟨hfds, _, _, ⟨hnext, _⟩ | ⟨hexited, _⟩⟩ := h.server_frame
  · unfold serverRank
    rw [hfds, hnext, hpc]
    exact hlt
  · unfold serverRank
    rw [hexited, hpc]
    exact Nat.zero_lt_of_lt hlt

theorem Advances.drop {pc next : ServerPc} (hpc : s.server.pc = pc)
    (hlt : pcRank cfg.names.length s.server.clientFds.keys.length next <
      pcRank cfg.names.length s.server.clientFds.keys.length pc) :
    Advances cfg s ((s.dropClient fd).goto next) := by
  refine ⟨?_, closeFd_process s fd⟩
  have hle : pcRank cfg.names.length (s.server.clientFds.erase fd).keys.length next ≤
      pcRank cfg.names.length s.server.clientFds.keys.length next :=
    pcRank_mono (length_keys_erase_le s.server.clientFds fd) next
  unfold serverRank
  rw [hpc]
  exact Nat.lt_of_le_of_lt hle hlt

theorem Advances.handled {source : Nat} {name message : String} {fds ready : List Nat}
    (hpc : s.server.pc = .handle fd source message fds ready)
    (h : Handled s fd source name fds ready message t) : Advances cfg s t := by
  have hlt : pcRank cfg.names.length s.server.clientFds.keys.length (.check fds ready) <
      pcRank cfg.names.length s.server.clientFds.keys.length
        (.handle fd source message fds ready) := by
    simp only [pcRank]
    omega
  cases h with
  | ready => exact .sent (serverSend_sent s fd _ _ _) hpc hlt
  | monitoring => exact .goto hpc hlt
  | linkDown =>
      have hsent := serverSend_sent
        { s with server.alerts := s.server.alerts ++ [(source, name)] } fd "Set Link Up" [source]
        (.check fds ready)
      exact ⟨(Advances.sent hsent hpc hlt : Advances cfg _ _).rank, hsent.process⟩
  | done => exact .drop hpc hlt
  | unknown _ => exact ⟨(Advances.goto hpc hlt : Advances cfg s _).rank, fun _ => rfl⟩

theorem serverStep_advances (hregistered : Registered s) (hrunning : s.server.running = false)
    (h : serverStep cfg s = some t) : Advances cfg s t := by
  unfold serverStep at h
  split at h
  case h_1 k hpc =>
    obtain ⟨_, h⟩ := Option.ite_none_right_eq_some.mp h
    cases h
    exact .goto hpc (by simp only [pcRank]; omega)
  case h_2 hpc =>
    cases h
    rw [hrunning]
    exact .goto hpc (Nat.lt_succ_self _)
  case h_3 hpc =>
    cases h
    exact .goto hpc (Nat.lt_succ_self _)
  case h_4 ready hpc =>
    cases h
    exact .goto hpc (by simp only [pcRank]; omega)
  case h_5 ready hpc =>
    cases h
    exact .goto hpc (by simp only [pcRank, List.length_nil]; omega)
  case h_6 fd fds ready hpc =>
    cases h
    split
    · exact .goto hpc (by simp only [pcRank, List.length_cons]; omega)
    · exact .goto hpc (by simp only [pcRank, List.length_cons]; omega)
  case h_7 fd fds ready hpc =>
    unfold receiveMessage at h
    split at h
    case h_1 =>
      cases h
      exact .drop hpc (by simp only [pcRank]; omega)
    case h_2 k _ =>
      split at h
      case h_1 message rest _ =>
        cases h
        refine ⟨?_, fun j => ?_⟩
        · unfold serverRank
          rw [hpc]
          exact Nat.lt_succ_self _
        · change (Function.update s.monitor k { s.monitor k with up := rest } j).process = _
          rcases eq_or_ne j k with rfl | hne
          · rw [Function.update_self]
          · rw [Function.update_of_ne hne]
      case h_2 =>
        split at h
        case isTrue => cases h
        case isFalse =>
          cases h
          exact .drop hpc (by simp only [pcRank]; omega)
  case h_8 fd source message fds ready hpc =>
    cases h
    have hfd : fd ∈ s.server.clientFds.keys := hregistered.visited fd (by rw [hpc]; rfl)
    obtain ⟨_, _, hhandled⟩ := handleMessage_handled source message fds ready hfd
    exact .handled hpc hhandled
  case h_9 fd fds hpc =>
    cases h
    exact .sent (serverSend_sent s fd _ _ _) hpc (by simp only [pcRank, List.length_cons]; omega)
  case h_10 hpc =>
    cases h
    refine ⟨?_, fun _ => rfl⟩
    unfold serverRank
    rw [hpc]
    exact Nat.lt_succ_self _
  case h_11 fd fds hpc =>
    cases h
    refine ⟨?_, closeFd_process s fd⟩
    change serverRank cfg { (s.closeFd fd).server with pc := .sendShutDown fds } < _
    rw [closeFd_server]
    unfold serverRank
    rw [hpc]
    exact Nat.lt_succ_self _
  case h_12 hpc =>
    cases h
    refine ⟨?_, fun k => hangUp_process (s.monitor k)⟩
    unfold serverRank
    rw [hpc]
    exact Nat.lt_succ_self _
  case h_13 | h_14 | h_15 | h_16 => cases h

/-- A step of networkMonitor: it goes on by itself, or by a fork. -/
theorem serverAction_cases {a : Action} (hregistered : Registered s) (hint : Interrupted s)
    (hcfg : cfg.restarts = true) (hquiet : Quiet s a) (h : serverAction cfg s a = some t) :
    Advances cfg s t ∨ ∃ k, s.server.pc = .fork k ∧ k < cfg.names.length ∧
      (s.monitor k).pc = .unborn ∧ t = (startMonitor k s).goto (.fork (k + 1)) := by
  cases a with
  | server => exact .inl (serverStep_advances hregistered hint.running h)
  | fork =>
      simp only [serverAction, fork] at h
      split at h
      case h_1 k hpc =>
        obtain ⟨⟨hk, hunborn⟩, h⟩ := Option.ite_none_right_eq_some.mp h
        cases h
        exact .inr ⟨k, hpc, hk, hunborn, rfl⟩
      case h_2 => cases h
  | forkFails =>
      simp only [serverAction, forkFails] at h
      split at h
      case h_1 k hpc =>
        obtain ⟨hk, h⟩ := Option.ite_none_right_eq_some.mp h
        cases h
        exact .inl (.goto hpc (by simp only [pcRank]; omega))
      case h_2 => cases h
  | selectReturns master ready =>
      simp only [serverAction, selectReturns] at h
      split at h
      case h_1 set fds hpc =>
        obtain ⟨_, h⟩ := Option.ite_none_right_eq_some.mp h
        cases h
        exact .inl (.goto hpc (Nat.lt_succ_self _))
      case h_2 => cases h
  | selectInterrupted =>
      simp only [serverAction] at h
      split at h
      case h_1 set fds hpc =>
        cases h
        exact .inl (.goto hpc (by simp only [pcRank]; omega))
      case h_2 => cases h
  | selectFails =>
      simp only [serverAction, selectFails] at h
      split at h
      case h_1 set fds hpc =>
        cases h
        have hgoto : Advances cfg s (s.goto (.checkMaster set fds)) :=
          .goto hpc (Nat.lt_succ_self _)
        exact .inl ⟨hgoto.rank, hgoto.processes⟩
      case h_2 => cases h
  | checkMaster result =>
      simp only [serverAction, checkMaster] at h
      split at h
      case h_1 master ready hpc =>
        obtain ⟨_, h⟩ := Option.ite_none_right_eq_some.mp h
        cases h
        split
        · exact .inl (.goto hpc (Nat.lt_succ_self _))
        · exact .inl (.goto hpc (by simp only [pcRank]; omega))
      case h_2 => cases h
  | accept fd =>
      -- the listening socket is closed
      simp only [serverAction, accept, hint.masterOpen, Bool.false_eq_true, false_and,
        if_false] at h
      split at h <;> cases h
  | acceptFails interrupted =>
      simp only [serverAction, acceptFails] at h
      split at h
      case h_1 ready hpc =>
        cases h
        split
        · exact .inl (.goto hpc (by simp only [pcRank]; omega))
        · exact .inl (.goto hpc (Nat.lt_succ_self _))
      case h_2 => cases h
  | receiveInterrupted =>
      simp only [serverAction, receiveInterrupted, hcfg, if_true] at h
      split at h <;> cases h
  | sigintServer => exact hquiet.elim
  | _ => cases h

/-- A monitor goes on, and nothing else does. -/
structure Steps (s t : State) (k : Nat) (m : Monitor) : Prop where
  eq : t = s.setMonitor k m
  born : (s.monitor k).pc ≠ .unborn
  rank : monitorRank m.pc < monitorRank (s.monitor k).pc
  running : m.pc.connected = true → m.process.running = false

theorem Steps.exit (hborn : (s.monitor k).pc ≠ .unborn) (halive : (s.monitor k).pc ≠ .exited) :
    Steps s (exitMonitor k s) k
      { s.monitor k with process := (s.monitor k).process.goto .exited } := by
  refine ⟨rfl, hborn, ?_, nofun⟩
  change 0 < monitorRank (s.monitor k).pc
  cases hpc : (s.monitor k).pc with
  | unborn => exact absurd hpc hborn
  | exited => exact absurd hpc halive
  | _ => exact Nat.succ_pos _

theorem afterRecv_running {p q : Process} {r : Recv} (h : p.afterRecv r = some q)
    (hrunning : p.running = false) : q.running = false := by
  have hreceive : (Process.receiveMessage r p).running = false := by
    unfold Process.receiveMessage
    split
    · rfl
    · exact hrunning
  unfold Process.afterRecv at h
  split at h
  case h_1 =>
    split at h
    · cases h
      exact hreceive
    · cases h
      rfl
  case h_2 =>
    split at h
    · cases h
      exact hreceive
    · split at h
      · cases h
        rfl
      · cases h
        exact hreceive
  case h_3 => cases h

theorem afterRecv_rank {p q : Process} {r : Recv} (h : p.afterRecv r = some q) :
    p.pc.connected = true ∧ monitorRank q.pc < monitorRank p.pc := by
  rcases Process.afterRecv_cases h with ⟨hpc, ⟨_, hq⟩ | ⟨_, hq, _⟩⟩ | ⟨hpc, ⟨_, hq⟩ | ⟨_, hq⟩⟩
  all_goals
    rw [hpc, hq]
    decide

theorem Steps.recv {r : Recv} {p : Process} (hint : Interrupted s)
    (h : (s.monitor k).process.afterRecv r = some p) (down : List String) :
    Steps s (s.setMonitor k { s.monitor k with process := p, down := down }) k
      { s.monitor k with process := p, down := down } := by
  obtain ⟨hconnected, hrank⟩ := afterRecv_rank h
  refine ⟨rfl, ?_, hrank, fun _ => ?_⟩
  · intro hunborn
    rw [show (s.monitor k).process.pc = .unborn from hunborn] at hconnected
    cases hconnected
  · exact afterRecv_running h (hint.monitors k hconnected)

theorem localStep_rank {p q : Process} {operstate : String} (h : p.localStep operstate = some q)
    (hrunning : p.pc.connected = true → p.running = false) :
    p.pc ≠ .unborn ∧ monitorRank q.pc < monitorRank p.pc ∧
      (q.pc.connected = true → q.running = false) := by
  unfold Process.localStep at h
  split at h
  case h_1 hpc =>
    cases h
    rw [hpc, Process.goto_pc]
    exact ⟨nofun, by decide, nofun⟩
  case h_2 hpc =>
    cases h
    rw [hpc] at hrunning ⊢
    rw [if_neg (by rw [hrunning rfl]; nofun), Process.goto_pc]
    exact ⟨nofun, by decide, fun _ => hrunning rfl⟩
  case h_3 hpc =>
    cases h
    rw [hpc] at hrunning ⊢
    refine ⟨nofun, ?_, fun _ => hrunning rfl⟩
    change monitorRank (if operstate = "down" then .sendLinkDown else .report) < 9
    split <;> decide
  case h_4 hpc | h_5 hpc =>
    cases h
    rw [hpc] at hrunning ⊢
    rw [Process.goto_pc]
    exact ⟨nofun, by decide, fun _ => hrunning rfl⟩
  case h_6 => cases h

theorem send_rank {pc : MonitorPc} {message : String} (h : Process.outgoing pc = some message) :
    pc.connected = true ∧ monitorRank (Process.afterSend pc) < monitorRank pc := by
  cases pc <;> cases h <;> decide

/-- A step of a monitor takes it nearer to its end. -/
theorem monitorAction_cases {a : Action} (hint : Interrupted s) (hcfg : cfg.restarts = true)
    (hquiet : Quiet s a) (h : monitorAction cfg s a = some t) : ∃ k m, Steps s t k m := by
  cases a with
  | fails k =>
      obtain ⟨hpc, h⟩ := Option.ite_none_right_eq_some.mp h
      cases h
      refine ⟨k, _, .exit ?_ ?_⟩
      · rcases hpc with hpc | hpc <;> rw [hpc] <;> nofun
      · rcases hpc with hpc | hpc <;> rw [hpc] <;> nofun
  | monitor k operstate =>
      obtain ⟨p, hlocal, rfl⟩ := Option.map_eq_some_iff.mp h
      obtain ⟨hborn, hrank, hrunning⟩ := localStep_rank hlocal (hint.monitors k)
      exact ⟨k, _, rfl, hborn, hrank, hrunning⟩
  | connect k =>
      -- nobody listens
      obtain ⟨⟨_, hopen, _⟩, _⟩ := Option.ite_none_right_eq_some.mp h
      cases hint.masterOpen.symm.trans hopen
  | send k =>
      obtain ⟨message, hout, rfl⟩ := Option.map_eq_some_iff.mp h
      obtain ⟨hconnected, hrank⟩ := send_rank hout
      have hborn : (s.monitor k).pc ≠ .unborn := by
        intro hunborn
        rw [hunborn] at hconnected
        cases hconnected
      split
      · refine ⟨k, _, .exit hborn fun hexited => ?_⟩
        rw [hexited] at hconnected
        cases hconnected
      · exact ⟨k, _, rfl, hborn, hrank, fun _ => hint.monitors k hconnected⟩
  | recv k =>
      change recvMonitor k s = some t at h
      unfold recvMonitor at h
      split at h
      case h_1 message rest _ =>
        obtain ⟨p, hrecv, rfl⟩ := Option.map_eq_some_iff.mp h
        exact ⟨k, _, .recv hint hrecv rest⟩
      case h_2 => cases h
  | recvEnds k r =>
      change recvEnds cfg k r s = some t at h
      unfold recvEnds at h
      split at h
      case h_1 | h_2 =>
        obtain ⟨_, h⟩ := Option.ite_none_right_eq_some.mp h
        obtain ⟨p, hrecv, rfl⟩ := Option.map_eq_some_iff.mp h
        exact ⟨k, _, .recv hint hrecv (s.monitor k).down⟩
      case h_3 =>
        rw [if_pos hcfg] at h
        cases h
      case h_4 => cases h
  | close k =>
      obtain ⟨hpc, h⟩ := Option.ite_none_right_eq_some.mp h
      cases h
      exact ⟨k, _, .exit (by rw [hpc]; nofun) (by rw [hpc]; nofun)⟩
  | launch _ | sigint _ | die _ => exact hquiet.elim
  | _ => cases h

/-! What stays as it is. -/

def Stopped (server : Server) : Prop := server.running = false ∧ server.masterOpen = false

theorem stopped_sent {message : String} {sources : List Nat} {next : ServerPc}
    (h : Stopped s.server) (hsent : Sent s fd message sources next t) : Stopped t.server := by
  cases hsent with
  | told _ _ | closed _ => exact h
  | killed _ _ => exact ⟨h.1, rfl⟩

theorem stopped_closeFd (h : Stopped s.server) (fd : Nat) : Stopped (s.closeFd fd).server := by
  rw [closeFd_server]
  exact h

theorem stopped_handled {source : Nat} {name message : String} {fds ready : List Nat}
    (h : Stopped s.server) (hhandled : Handled s fd source name fds ready message t) :
    Stopped t.server := by
  cases hhandled with
  | ready => exact stopped_sent h (serverSend_sent s fd _ _ _)
  | linkDown =>
      refine stopped_sent ?_ (serverSend_sent _ fd _ _ _)
      exact h
  | done => exact stopped_closeFd h fd
  | monitoring | unknown _ => exact h

theorem stopped_effect {a : Action} (hregistered : Registered s) (h : Stopped s.server)
    (heffect : Effect cfg s a t) : Stopped t.server := by
  cases heffect with
  | selectFails _ => exact ⟨rfl, h.2⟩
  | @drop fd _ _ _ _ => exact stopped_closeFd h fd
  | @closeClient fd _ _ => exact stopped_closeFd h fd
  | @handle fd source message fds ready hpc =>
      have hfd : fd ∈ s.server.clientFds.keys := hregistered.visited fd (by rw [hpc]; rfl)
      obtain ⟨_, _, hhandled⟩ := handleMessage_handled source message fds ready hfd
      exact stopped_handled h hhandled
  | @tell fd _ _ => exact stopped_sent h (serverSend_sent s fd _ _ _)
  | exit _ => exact ⟨h.1, rfl⟩
  | sigintServer _ =>
      unfold sigHandlerServer
      split
      · exact ⟨rfl, rfl⟩
      · exact ⟨rfl, h.2⟩
  | _ => exact h

structure Invariant (cfg : Config) (n : Nat) (s : State) : Prop where
  orderly : Orderly s
  interrupted : Interrupted s
  forked : cfg.names.length ≤ n
  unborn : ∀ k, n ≤ k → (s.monitor k).pc = .unborn

/-- The process of one monitor changes. -/
theorem Invariant.update (h : Invariant cfg n s) (horderly : Orderly t)
    (hstopped : Stopped t.server) (hk : k < n)
    (hmonitor : t.monitor = Function.update s.monitor k m)
    (hrunning : m.pc.connected = true → m.process.running = false) : Invariant cfg n t where
  orderly := horderly
  interrupted := by
    refine ⟨hstopped.1, hstopped.2, fun j hconnected => ?_⟩
    rw [hmonitor] at hconnected ⊢
    rcases eq_or_ne j k with rfl | hne
    · rw [Function.update_self] at hconnected ⊢
      exact hrunning hconnected
    · rw [Function.update_of_ne hne] at hconnected ⊢
      exact h.interrupted.monitors j hconnected
  forked := h.forked
  unborn := by
    intro j hj
    rw [hmonitor, Function.update_of_ne (by omega)]
    exact h.unborn j hj

theorem Invariant.step {a : Action} (h : Invariant cfg n s) (hcfg : cfg.restarts = true)
    (hquiet : Quiet s a) (hstep : step cfg s a = some t) :
    Invariant cfg n t ∧ rank cfg n t < rank cfg n s := by
  have hdies : a.dies = false := by
    cases a with
    | die _ => exact hquiet.elim
    | _ => rfl
  have heffect := step_effect hstep
  have horderly : Orderly t := h.orderly.effect hcfg hdies heffect
  have hstopped : Stopped t.server := stopped_effect h.orderly.registered
    ⟨h.interrupted.running, h.interrupted.masterOpen⟩ heffect
  unfold rank
  rcases Option.or_eq_some_iff.mp hstep with hserver | ⟨_, hmonitor⟩
  · rcases serverAction_cases h.orderly.registered h.interrupted hcfg hquiet hserver with
      hadvances | ⟨k, hpc, hk, hunborn, rfl⟩
    · have hpcs : ∀ k, (t.monitor k).pc = (s.monitor k).pc := fun k =>
        congrArg Process.pc (hadvances.processes k)
      refine ⟨⟨horderly, ⟨hstopped.1, hstopped.2, fun k hconnected => ?_⟩, h.forked,
        fun k hk => ?_⟩, ?_⟩
      · rw [hpcs k] at hconnected
        rw [hadvances.processes k]
        exact h.interrupted.monitors k hconnected
      · rw [hpcs k]
        exact h.unborn k hk
      · rw [monitorsRank_congr hadvances.processes]
        exact Nat.add_lt_add_right hadvances.rank _
    · -- the new monitor has its 14 statements before it
      have hkn : k < n := Nat.lt_of_lt_of_le hk h.forked
      have hupdate := monitorsRank_update (t := (startMonitor k s).goto (.fork (k + 1)))
        (m := { s.monitor k with process := { pc := .start, running := true } }) hkn rfl
      refine ⟨h.update horderly hstopped hkn rfl nofun, ?_⟩
      rw [hunborn] at hupdate
      change _ + 0 = _ + 14 at hupdate
      change pcRank _ s.server.clientFds.keys.length (.fork (k + 1)) + _ <
        pcRank _ s.server.clientFds.keys.length s.server.pc + _
      rw [hpc]
      simp only [pcRank]
      omega
  · obtain ⟨k, m, hsteps⟩ := monitorAction_cases h.interrupted hcfg hquiet hmonitor
    obtain rfl := hsteps.eq
    have hk : k < n := by
      by_contra hge
      exact hsteps.born (h.unborn k (Nat.le_of_not_lt hge))
    have hupdate := monitorsRank_update (t := s.setMonitor k m) hk rfl
    have hrank := hsteps.rank
    refine ⟨h.update horderly hstopped hk rfl hsteps.running, ?_⟩
    change serverRank cfg s.server + _ < _
    omega

/-! Somebody can always go on. -/

/-- A `recv` that finds a message, or the connection closed, returns. -/
theorem recv_goesOn (hwaits : ∃ request, (s.monitor k).pc.waitsOn = some request)
    (hrecv : (s.monitor k).down ≠ [] ∨ (s.monitor k).link = .closed) :
    ∃ a, Quiet s a ∧ (step cfg s a).isSome = true := by
  have hafter : ∀ r, ((s.monitor k).process.afterRecv r).isSome = true := by
    intro r
    obtain ⟨request, hrequest⟩ := hwaits
    unfold Process.afterRecv
    split
    case h_1 => split <;> rfl
    case h_2 => split <;> [rfl; (split <;> rfl)]
    case h_3 hmonitor hcommand =>
      exfalso
      unfold MonitorPc.waitsOn at hrequest
      split at hrequest
      · next hpc => exact hmonitor hpc
      · next hpc => exact hcommand hpc
      · cases hrequest
  cases hdown : (s.monitor k).down with
  | nil =>
      have hclosed := hrecv.resolve_left fun hne => hne hdown
      refine ⟨.recvEnds k .closed, trivial, ?_⟩
      simp [step, serverAction, monitorAction, recvEnds, hdown, hclosed, hafter]
  | cons message rest =>
      refine ⟨.recv k, trivial, ?_⟩
      simp [step, serverAction, monitorAction, recvMonitor, hdown, hafter]

/-- A monitor whose `recv` would return can go on. -/
theorem monitor_goesOn (hborn : (s.monitor k).pc ≠ .unborn) (halive : (s.monitor k).pc ≠ .exited)
    (hrecv : ∀ request, (s.monitor k).pc.waitsOn = some request →
      (s.monitor k).down ≠ [] ∨ (s.monitor k).link = .closed) :
    ∃ a, Quiet s a ∧ (step cfg s a).isSome = true := by
  cases hpc : (s.monitor k).pc with
  | unborn => exact absurd hpc hborn
  | exited => exact absurd hpc halive
  | connect => exact ⟨.fails k, trivial, by simp [step, serverAction, monitorAction, hpc]⟩
  | close => exact ⟨.close k, trivial, by simp [step, serverAction, monitorAction, hpc]⟩
  | awaitMonitor | awaitCommand =>
      rw [hpc] at hrecv
      exact recv_goesOn ⟨_, by rw [hpc]; rfl⟩ (hrecv _ rfl)
  | sendReady | sendMonitoring | sendLinkDown | sendDone =>
      refine ⟨.send k, trivial, ?_⟩
      simp [step, serverAction, monitorAction, sendMonitor, hpc, Process.outgoing]
  | start | test | poll | setLinkUp | report =>
      have hprocess : (s.monitor k).process.pc = _ := hpc
      refine ⟨.monitor k "", trivial, ?_⟩
      simp [step, serverAction, monitorAction, localMonitor, Process.localStep, hprocess]

theorem receive_blocks {fds ready : List Nat} (h : receiveMessage fd fds ready s = none) :
    ∃ k, (s.monitor k).pc.connected = true ∧ (s.monitor k).up = [] := by
  unfold receiveMessage at h
  split at h
  case h_1 => cases h
  case h_2 k _ =>
    split at h
    case h_1 => cases h
    case h_2 hup =>
      split at h
      case isTrue hconnected => exact ⟨k, hconnected, hup⟩
      case isFalse => cases h

/-- networkMonitor can go on, or waits in `recv` for a monitor that can. -/
theorem server_goesOn (h : Orderly s) (hmaster : s.server.masterOpen = false)
    (hpc : s.server.pc ≠ .exited) : ∃ a, Quiet s a ∧ (step cfg s a).isSome = true := by
  cases hserver : s.server.pc with
  | exited => exact absurd hserver hpc
  | fork k =>
      by_cases hk : k < cfg.names.length
      · exact ⟨.forkFails, trivial, by simp [step, serverAction, forkFails, hserver, hk]⟩
      · refine ⟨.server, trivial, ?_⟩
        simp [step, serverAction, serverStep, hserver, Nat.le_of_not_lt hk]
  | select set fds =>
      refine ⟨.selectReturns false [], trivial, ?_⟩
      simp [step, serverAction, selectReturns, hserver]
  | checkMaster master ready =>
      refine ⟨.checkMaster false, trivial, ?_⟩
      simp [step, serverAction, checkMaster, hserver, hmaster]
  | accept ready =>
      exact ⟨.acceptFails false, trivial, by simp [step, serverAction, acceptFails, hserver]⟩
  | receive fd fds ready =>
      cases hreceive : receiveMessage fd fds ready s with
      | some t =>
          refine ⟨.server, trivial, ?_⟩
          simp [step, serverAction, serverStep, hserver, hreceive]
      | none =>
          obtain ⟨k, hconnected, hup⟩ := receive_blocks hreceive
          have hhandled : s.handled k = [] := handled_of_idle (by rw [hserver]; rfl) k
          refine monitor_goesOn (k := k) ?_ ?_ fun request hwaits => ?_
          · intro hunborn
            rw [hunborn] at hconnected
            cases hconnected
          · intro hexited
            rw [hexited] at hconnected
            cases hconnected
          · -- it has no request on its way, so it waits for nothing that is still to come
            by_contra hnone
            obtain ⟨hdown, hlink⟩ := not_or.mp hnone
            have hpending := (h.session k).pending hwaits hlink (by simpa using hdown)
            rw [hhandled, hup] at hpending
            cases hpending
  | check fds ready =>
      refine ⟨.server, trivial, ?_⟩
      cases fds <;> simp [step, serverAction, serverStep, hserver]
  | sendShutDown fds =>
      refine ⟨.server, trivial, ?_⟩
      cases fds <;> simp [step, serverAction, serverStep, hserver]
  | _ => exact ⟨.server, trivial, by simp [step, serverAction, serverStep, hserver]⟩

theorem goesOn (h : Orderly s) (hmaster : s.server.masterOpen = false) (hnot : ¬ Finished s) :
    ∃ a t, Quiet s a ∧ step cfg s a = some t := by
  suffices hsome : ∃ a, Quiet s a ∧ (step cfg s a).isSome = true by
    obtain ⟨a, hquiet, hstep⟩ := hsome
    obtain ⟨t, ht⟩ := Option.isSome_iff_exists.mp hstep
    exact ⟨a, t, hquiet, ht⟩
  by_cases hexited : s.server.pc = .exited
  · -- every connection is closed
    obtain ⟨k, hborn, halive⟩ : ∃ k, (s.monitor k).pc ≠ .unborn ∧ (s.monitor k).pc ≠ .exited := by
      by_contra hnone
      apply hnot
      refine ⟨hexited, fun k => ?_⟩
      by_contra hk
      exact hnone ⟨k, not_or.mp hk⟩
    apply monitor_goesOn hborn halive
    intro request hwaits
    rcases (h.consistent.ended hexited).2 k with hnone | hclosed
    · have hconnected := ((h.session k).unconnected hnone).1
      rw [MonitorPc.connected_of_waitsOn hwaits] at hconnected
      cases hconnected
    · exact .inr hclosed
  · exact server_goesOn h hmaster hexited

/-- Once networkMonitor and the monitors connected to it have handled SIGINT, every run comes
to an end within as many steps as the rank says, with networkMonitor and all monitors gone. -/
theorem ctrlC_ends {running : Bool} (hcfg : cfg.restarts = true)
    (hreach : Reaches (step cfg) (fun _ a => a.dies = false) (State.initial running) s)
    (hint : Interrupted s) (hforked : cfg.names.length ≤ n)
    (hunborn : ∀ k, n ≤ k → (s.monitor k).pc = .unborn) :
    EndsWithin (step cfg) Quiet Finished (rank cfg n s) s := by
  have horderly : Orderly s := by
    apply hreach.invariant (Orderly.initial running)
    intro u a v hu hdies hstep
    exact hu.effect hcfg hdies (step_effect hstep)
  have hinvariant : Invariant cfg n s := ⟨horderly, hint, hforked, hunborn⟩
  exact .of_rank (rank cfg n) (fun _ _ _ h hquiet hstep => (h.step hcfg hquiet hstep).1)
    (fun _ _ _ h hquiet hstep => (h.step hcfg hquiet hstep).2)
    (fun _ h hnot => goesOn h.orderly h.interrupted.masterOpen hnot) hinvariant

/-- Ctrl-C comes while the only monitor waits for the answer to its report. -/
def interruptedReport : List Action :=
  [.fork, .server] ++ connecting 0 ++ acceptAs 4 0 ++ greeting 0 4 ++
  [.monitor 0 "up", .monitor 0 "down", .send 0, .sigintServer, .sigint 0]

theorem ctrlC_ends_report :
    ∃ s, run (step ⟨["eth0"], true⟩) (State.initial true) interruptedReport = some s ∧
      (s.monitor 0).pc = .awaitCommand ∧
      EndsWithin (step ⟨["eth0"], true⟩) Quiet Finished 12 s := by
  have hmeet : StepsMeet (step ⟨["eth0"], true⟩) (fun _ a => a.dies = false)
      (State.initial true) interruptedReport := by decide
  refine ⟨_, rfl, rfl, ?_⟩
  refine ctrlC_ends (n := 1) rfl (Reaches.of_run interruptedReport rfl hmeet) ⟨rfl, rfl, ?_⟩
    le_rfl ?_
  · intro k
    cases k with
    | zero => exact fun _ => rfl
    | succ k => exact nofun
  · intro k hk
    cases k with
    | zero => cases hk
    | succ k => rfl

end

end Unx511.Assignment2.Shutdown
