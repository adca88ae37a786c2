import Unx511.Assignment2.ClientRegistry

/-!
The descriptors that the select loop passes to `FD_SET`, `FD_ISSET` and `accept`.
The loop reads `master_socket_fd` three times after its test of `running`, and the
handler sets it to -1 at any time; and nothing bounds what `accept` returns.
-/

namespace Unx511.Assignment2.SelectLoop

open Unx511.Machine

def FD_SETSIZE : Nat := 1024

/-- The descriptor that the statement passes on; the inner `none` is -1. -/
def State.passes (s : State) : Option (Option Nat) :=
  match s.pc with
  | .setMaster | .testMaster | .accept => some s.masterFd
  | .setClients (fd :: _) | .check (fd :: _) => some (some fd)
  | _ => none

/-- What the statement passes on is open and fits into an `fd_set`. -/
def PassesValid (s : State) : Prop :=
  ∀ d, s.passes = some d →
    ∃ fd, d = some fd ∧ (s.masterFd = some fd ∨ s.conn fd ≠ .free) ∧ fd < FD_SETSIZE

/-- SIGINT comes outside the window between the test of `running` and `accept`, or
interrupts `select` in it; and a descriptor that gets a name fits. -/
def InTime (names : List String) (s : State) : Action → Prop
  | .sigint => s.pc.inWindow = false
  | .accepted fd => (freeName names s.clientFds).isSome = true → fd < FD_SETSIZE
  | _ => True

instance (names : List String) (s : State) (a : Action) : Decidable (InTime names s a) := by
  unfold InTime
  split <;> infer_instance

structure Bounded (s : State) : Prop where
  master : ∀ m, s.masterFd = some m → m < FD_SETSIZE
  listening : s.pc.inLoop = true → s.running = true ∨ s.pc.inWindow = true →
    s.masterFd.isSome = true
  clients : ∀ fd ∈ s.clientFds.keys, fd < FD_SETSIZE

theorem bounded_initial {master : Nat} (hmaster : master < FD_SETSIZE) (running : Bool) :
    Bounded (State.initial master running) where
  master := by
    rintro m ⟨⟩
    exact hmaster
  listening := fun _ _ => rfl
  clients := nofun

namespace Bounded

variable {names : List String} {s t : State}

/-- The loop moves on, and perhaps drops clients. -/
theorem inside (h : Bounded s) (hloop : s.pc.inLoop = true) (hmaster : t.masterFd = s.masterFd)
    (hclientFds : ∀ fd ∈ t.clientFds.keys, fd ∈ s.clientFds.keys)
    (hrunning : t.running = true → s.running = true)
    (hwindow : t.pc.inWindow = true → s.pc.inWindow = true ∨ s.running = true) : Bounded t := by
  refine ⟨?_, fun _ hlistening => ?_, fun fd hfd => h.clients fd (hclientFds fd hfd)⟩
  · rw [hmaster]
    exact h.master
  · rw [hmaster]
    apply h.listening hloop
    rcases hlistening with hrun | hin
    · exact .inl (hrunning hrun)
    · exact (hwindow hin).symm

/-- The listening socket is closed, or the loop is over. -/
theorem outside (h : Bounded s) (hmaster : ∀ m, t.masterFd = some m → s.masterFd = some m)
    (hclientFds : ∀ fd ∈ t.clientFds.keys, fd ∈ s.clientFds.keys)
    (hquiet : t.pc.inLoop = true → t.running = false ∧ t.pc.inWindow = false) : Bounded t := by
  refine ⟨fun m hm => h.master m (hmaster m hm), fun hloop hlistening => ?_,
    fun fd hfd => h.clients fd (hclientFds fd hfd)⟩
  obtain ⟨hrunning, hwindow⟩ := hquiet hloop
  rcases hlistening with hrun | hin
  · cases hrunning.symm.trans hrun
  · cases hwindow.symm.trans hin

theorem drop (h : Bounded s) {fd : Nat} (fds : List Nat) (hloop : s.pc.inLoop = true) :
    Bounded ((s.dropClient fd).goto (.check fds)) :=
  h.inside hloop rfl (fun _ hf => (OrderedMap.mem_keys_erase.mp hf).1) id nofun

theorem move {a : Action} (h : Bounded s) (hconsistent : Consistent names s)
    (hcond : InTime names s a) (hmove : Move names s a t) : Bounded t := by
  cases hmove with
  | inside hinside => exact h.inside hinside.loop rfl (fun _ => id) hinside.running hinside.window
  | interrupted _ => exact h.outside nofun (fun _ => id) fun _ => ⟨rfl, rfl⟩
  | sigint _ => exact h.outside nofun (fun _ => id) fun _ => ⟨rfl, hcond⟩
  | @register fd name hpc _ _ hname =>
      refine ⟨h.master, fun _ _ => h.listening (by rw [hpc]; rfl) (.inr (by rw [hpc]; rfl)), ?_⟩
      intro f hf
      rcases OrderedMap.mem_keys_set.mp hf with rfl | hold
      · exact hcond (by rw [hname]; rfl)
      · exact h.clients f hold
  | @handle fd message fds hpc =>
      have hhandled := hconsistent.handled hpc
      generalize handleMessage fd message fds s = t at hhandled
      cases hhandled with
      | checked _ => exact h.inside (by rw [hpc]; rfl) rfl (fun _ => id) id nofun
      | killed _ _ => exact h.outside nofun (fun _ => id) nofun
      | dropped _ => exact h.drop fds (by rw [hpc]; rfl)
  | ends hpc _ => exact h.drop _ (by rw [hpc]; rfl)
  | fails hpc =>
      rw [hconsistent.subscript_eq (by rw [hpc]; exact List.mem_cons_self)]
      exact h.drop _ (by rw [hpc]; rfl)
  | @tell fd fds hpc =>
      unfold State.send
      split
      · exact h.outside (fun _ => id) (fun _ => id) nofun
      · exact h.outside nofun (fun _ => id) nofun
      · exact h.outside (fun _ => id) (fun _ => id) nofun
  | leave _ _ | close _ | removeFile _ => exact h.outside (fun _ => id) (fun _ => id) nofun
  | clear _ => exact h.outside (fun _ => id) nofun nofun
  | closeMaster _ => exact h.outside nofun (fun _ => id) nofun
  | peerCloses _ => exact ⟨h.master, h.listening, h.clients⟩

/-- In a bounded state the statement passes on a good descriptor. -/
theorem passesValid (h : Bounded s) (hconsistent : Consistent names s) : PassesValid s := by
  have hlistening : s.pc.inWindow = true → s.pc.inLoop = true → ∃ fd, s.masterFd = some fd ∧
      (s.masterFd = some fd ∨ s.conn fd ≠ .free) ∧ fd < FD_SETSIZE := by
    intro hwindow hloop
    obtain ⟨m, hm⟩ := Option.isSome_iff_exists.mp (h.listening hloop (.inr hwindow))
    exact ⟨m, hm, .inl hm, h.master m hm⟩
  have hclient : ∀ fd ∈ s.pc.visits, s.pc.inLoop = true →
      (s.masterFd = some fd ∨ s.conn fd ≠ .free) ∧ fd < FD_SETSIZE := by
    intro fd hfd hloop
    have hkey : fd ∈ s.clientFds.keys := hconsistent.visited fd hfd
    exact ⟨.inr ((hconsistent.keys hloop fd).mp hkey), h.clients fd hkey⟩
  intro d hd
  unfold State.passes at hd
  split at hd
  case h_1 hpc | h_2 hpc | h_3 hpc =>
    cases hd
    exact hlistening (by rw [hpc]; rfl) (by rw [hpc]; rfl)
  case h_4 fd fds hpc | h_5 fd fds hpc =>
    cases hd
    exact ⟨fd, rfl, hclient fd (by rw [hpc]; exact List.mem_cons_self) (by rw [hpc]; rfl)⟩
  case h_6 => cases hd

end Bounded

/-- On a run on which SIGINT and the descriptors come as `InTime` says, every
descriptor that the loop passes on is open and fits. -/
theorem passes_valid {names : List String} {master : Nat} (hmaster : master < FD_SETSIZE)
    (running : Bool) {acts : List Action}
    (hmeet : StepsMeet (step names) (InTime names) (State.initial master running) acts) :
    StatesMeet (step names) PassesValid (State.initial master running) acts := by
  have hbounded : StatesMeet (step names) (fun s => Bounded s ∧ Consistent names s)
      (State.initial master running) acts :=
    .of_stepsMeet
      (fun _ _ _ h hcond hstep =>
        ⟨h.1.move h.2 hcond (step_move hstep), h.2.move (step_move hstep)⟩)
      ⟨bounded_initial hmaster running, consistent_initial names master running⟩ hmeet
  exact hbounded.mono fun _ h => h.1.passesValid h.2

/-- In `comeAndGo` SIGINT interrupts `select`. -/
theorem passes_valid_come_and_go :
    ∃ s, run (step ["eth0", "eth1"]) (State.initial 3 true) comeAndGo = some s ∧ s.pc = .exited ∧
      StatesMeet (step ["eth0", "eth1"]) PassesValid (State.initial 3 true) comeAndGo := by
  have hmaster : 3 < FD_SETSIZE := by decide
  have hmeet : StepsMeet (step ["eth0", "eth1"]) (InTime ["eth0", "eth1"])
      (State.initial 3 true) comeAndGo := by decide
  exact ⟨_, rfl, rfl, passes_valid hmaster true hmeet⟩

/-- SIGINT comes after the test of `running`, and `FD_SET` is called with -1. -/
theorem minus_one_passed :
    ∃ s, run (step ["eth0"]) (State.initial 3 true) [.next, .sigint] = some s ∧
      s.pc = .setMaster ∧ s.passes = some none ∧ ¬ PassesValid s := by
  refine ⟨_, rfl, rfl, rfl, fun hvalid => ?_⟩
  obtain ⟨fd, heq, _⟩ := hvalid none rfl
  cases heq

end Unx511.Assignment2.SelectLoop
