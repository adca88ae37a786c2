import Unx511.Assignment2.ClientRegistry

/-!
A client that goes away. networkMonitor drops no other client with it, and
`cleanup_sockets` tells the clients one by one and comes to its end. But nothing
ignores SIGPIPE: a message to a client that has closed its end ends the process,
and with it the service of all the others.
-/

namespace Unx511.Assignment2.SelectLoop

open Unx511.Machine

/-- The clients that `cleanup_sockets` has still to tell. -/
def Pc.toTell : Pc → List Nat
  | .sendShutDown fds | .closeClient _ fds => fds
  | _ => []

/-- The statements that `cleanup_sockets` has still to execute. -/
def Pc.left : Pc → Nat
  | .sendShutDown fds => 2 * fds.length + 3
  | .closeClient _ fds => 2 * fds.length + 4
  | .closeMaster => 2
  | .removeFile => 1
  | _ => 0

def Pc.alive : Pc → Bool
  | .killed => false
  | _ => true

/-- The client that is read from. -/
def State.serves (s : State) : Option Nat :=
  match s.pc with
  | .receive fd _ | .handle fd _ _ => some fd
  | _ => none

/-- What a step does to those that it does not concern. -/
structure Isolates (s : State) (a : Action) (t : State) : Prop where
  alive : t.pc ≠ .killed
  others : t.pc.cleared = false → ∀ e ∈ s.clientFds, s.serves ≠ some e.1 → e ∈ t.clientFds
  /-- In `cleanup_sockets` each statement of networkMonitor brings it closer to its end, -/
  advances : s.pc.inLoop = false → t.pc.left + (if a = .next then 1 else 0) = s.pc.left
  /-- and the next one waits for nobody. -/
  goesOn : t.pc.inLoop = false → t.pc = .exited ∨ ∃ u, nextStep t = some u
  told : t.pc = .exited → t.told = t.remaining ∧ t.socketFile = false

/-- Whatever the step leads to, it isolates. -/
def IsolatesNext (names : List String) (s : State) (a : Action) : Prop :=
  ∀ t, step names s a = some t → Isolates s a t

/-- A message goes only to a client that has its end open. -/
def SendsToOpen (s : State) (a : Action) : Prop :=
  a = .next → ∀ fd ∈ s.sendsTo, s.conn fd = .connected

instance (s : State) (a : Action) : Decidable (SendsToOpen s a) := by
  unfold SendsToOpen
  infer_instance

/-- How far `cleanup_sockets` has come. -/
structure Broadcast (s : State) : Prop where
  told : s.pc.telling = true ∨ s.pc.cleared = true → s.told ++ s.pc.toTell = s.remaining
  file : s.pc = .exited → s.socketFile = false
  killed : s.pc = .killed → ∀ fd, s.conn fd = .free

theorem broadcast_initial (master : Nat) (running : Bool) :
    Broadcast (State.initial master running) where
  told := by rintro (h | h) <;> cases h
  file := nofun
  killed := nofun

namespace Broadcast

variable {names : List String} {s t : State}

theorem of_loop (hloop : t.pc.inLoop = true) : Broadcast t := by
  obtain ⟨htelling, hcleared⟩ := Pc.outside_of_inLoop hloop
  refine ⟨?_, ?_, ?_⟩
  · rintro (h | h)
    · cases htelling.symm.trans h
    · cases hcleared.symm.trans h
  · intro h
    rw [h] at hloop
    cases hloop
  · intro h
    rw [h] at hloop
    cases hloop

theorem kill (s : State) : Broadcast s.kill where
  told := by rintro (h | h) <;> cases h
  file := nofun
  killed := fun _ _ => rfl

theorem send {fd : Nat} (hopen : s.conn fd ≠ .free) (hnext : Broadcast t) :
    Broadcast (s.send fd t) := by
  unfold State.send
  split
  case h_1 => exact hnext
  case h_2 => exact kill s
  case h_3 hfree => exact absurd hfree hopen

theorem move {a : Action} (h : Broadcast s) (hconsistent : Consistent names s)
    (hmove : Move names s a t) : Broadcast t := by
  cases hmove with
  | inside hinside => exact of_loop hinside.loop'
  | interrupted _ | register _ _ _ _ | ends _ _ | fails _ => exact of_loop rfl
  | sigint _ => exact ⟨h.told, h.file, h.killed⟩
  | @handle fd message fds hpc =>
      have hhandled := hconsistent.handled hpc
      generalize handleMessage fd message fds s = t at hhandled
      cases hhandled with
      | checked _ | dropped _ => exact of_loop rfl
      | killed _ _ => exact kill s
  | leave _ _ => exact ⟨fun _ => rfl, nofun, nofun⟩
  | @tell fd fds hpc =>
      have htold := h.told (.inl (by rw [hpc]; rfl))
      have hopen : s.conn fd ≠ .free := by
        rw [← hconsistent.toClose (.inl (by rw [hpc]; rfl)), hpc]
        exact List.mem_cons_self
      refine send hopen ⟨fun _ => ?_, nofun, nofun⟩
      rw [hpc] at htold
      change (s.told ++ [fd]) ++ fds = s.remaining
      rw [List.append_assoc]
      exact htold
  | @close fd fds hpc =>
      have htold := h.told (.inl (by rw [hpc]; rfl))
      rw [hpc] at htold
      exact ⟨fun _ => htold, nofun, nofun⟩
  | clear hpc =>
      have htold := h.told (.inl (by rw [hpc]; rfl))
      rw [hpc] at htold
      exact ⟨fun _ => htold, nofun, nofun⟩
  | closeMaster hpc =>
      have htold := h.told (.inr (by rw [hpc]; rfl))
      rw [hpc] at htold
      exact ⟨fun _ => htold, nofun, nofun⟩
  | removeFile hpc =>
      have htold := h.told (.inr (by rw [hpc]; rfl))
      rw [hpc] at htold
      exact ⟨fun _ => htold, fun _ => rfl, nofun⟩
  | @peerCloses fd hconn =>
      refine ⟨h.told, h.file, fun hpc => ?_⟩
      cases hconn.symm.trans (h.killed hpc fd)

end Broadcast

/-- Outside the loop a statement waits for nobody. -/
theorem nextStep_of_cleanup {s : State} (hloop : s.pc.inLoop = false) (halive : s.pc ≠ .killed) :
    s.pc = .exited ∨ ∃ t, nextStep s = some t := by
  cases hpc : s.pc with
  | sendShutDown fds =>
      right
      cases fds with
      | nil => exact ⟨_, by rw [nextStep, hpc]⟩
      | cons fd rest => exact ⟨_, by rw [nextStep, hpc]⟩
  | closeClient _ _ | closeMaster | removeFile => exact .inr ⟨_, by rw [nextStep, hpc]⟩
  | exited => exact .inl rfl
  | killed => exact absurd hpc halive
  | _ =>
      rw [hpc] at hloop
      cases hloop

theorem SendsToOpen.of_none {s : State} {a : Action} (h : s.sendsTo = none) : SendsToOpen s a := by
  intro _ fd hfd
  cases h.symm.trans hfd

theorem SendsToOpen.of_other {s : State} {a : Action} (h : a ≠ .next) : SendsToOpen s a :=
  fun hnext => absurd hnext h

theorem Pc.ne_killed {pc : Pc} (h : pc.alive = true) : pc ≠ .killed := by
  rintro rfl
  cases h

namespace Move

variable {names : List String} {s t : State} {a : Action}

/-- A step ends the process exactly when it sends to a client that is gone. -/
theorem alive_iff (hmove : Move names s a t) (hconsistent : Consistent names s)
    (hbroadcast : Broadcast s) : t.pc ≠ .killed ↔ SendsToOpen s a := by
  cases hmove with
  | @inside _ pc _ _ hinside =>
      refine iff_of_true (fun hkilled => ?_) (.of_none hinside.quiet)
      have hloop := hinside.loop'
      rw [show pc = .killed from hkilled] at hloop
      cases hloop
  | interrupted _ | register _ _ _ _ | ends _ _ | fails _ =>
      exact iff_of_true (Pc.ne_killed rfl) (.of_other (by simp))
  | sigint hlives => exact iff_of_true hlives.2 (.of_other (by simp))
  | @handle fd message fds hpc =>
      have hhandled := hconsistent.handled hpc
      generalize handleMessage fd message fds s = t at hhandled
      cases hhandled with
      | checked hsend => exact iff_of_true (Pc.ne_killed rfl) fun _ => hsend
      | killed hsend hconn =>
          refine iff_of_false (fun halive => halive rfl) fun hopen => ?_
          cases hconn.symm.trans (hopen rfl fd hsend)
      | dropped hsend => exact iff_of_true (Pc.ne_killed rfl) (.of_none hsend)
  | leave hpc _ | close hpc | clear hpc | closeMaster hpc | removeFile hpc =>
      exact iff_of_true (Pc.ne_killed rfl) (.of_none (by rw [State.sendsTo, hpc]))
  | @tell fd fds hpc =>
      have hsend : s.sendsTo = some fd := by rw [State.sendsTo, hpc]
      unfold State.send
      split
      case h_1 hconn =>
        refine iff_of_true (Pc.ne_killed rfl) fun _ f hf => ?_
        obtain rfl : fd = f := Option.some.inj (hsend.symm.trans hf)
        exact hconn
      case h_2 hconn =>
        refine iff_of_false (fun halive => halive rfl) fun hopen => ?_
        cases hconn.symm.trans (hopen rfl fd hsend)
      case h_3 hfree =>
        have hopen := (hconsistent.toClose (.inl (by rw [hpc]; rfl)) fd).mp
          (by rw [hpc]; exact List.mem_cons_self)
        exact absurd hfree hopen
  | @peerCloses fd hconn =>
      refine iff_of_true (fun hkilled => ?_) (.of_other (by simp))
      cases hconn.symm.trans (hbroadcast.killed hkilled fd)

/-- The entries of the clients that are not read from stay until the map is cleared. -/
theorem others (hmove : Move names s a t) (hconsistent : Consistent names s)
    (hcleared : t.pc.cleared = false) {e : Nat × String} (he : e ∈ s.clientFds)
    (hserves : s.serves ≠ some e.1) : e ∈ t.clientFds := by
  have herase : ∀ {fd : Nat}, s.serves = some fd → e ∈ s.clientFds.erase fd := by
    intro fd hfd
    refine OrderedMap.mem_erase.mpr ⟨he, ?_⟩
    rintro rfl
    exact hserves hfd
  cases hmove with
  | @register fd name hpc _ hfree _ =>
      refine OrderedMap.mem_set.mpr (.inr ⟨he, ?_⟩)
      rintro rfl
      have hkey : e.1 ∈ s.clientFds.keys := OrderedMap.mem_keys.mpr ⟨e.2, he⟩
      exact (hconsistent.keys (by rw [hpc]; rfl) e.1).mp hkey hfree
  | @handle fd message fds hpc =>
      have hhandled := hconsistent.handled hpc
      generalize handleMessage fd message fds s = t at hhandled
      cases hhandled with
      | checked _ | killed _ _ => exact he
      | dropped _ => exact herase (by rw [State.serves, hpc])
  | ends hpc _ => exact herase (by rw [State.serves, hpc])
  | fails hpc =>
      rw [hconsistent.subscript_eq (by rw [hpc]; exact List.mem_cons_self)]
      exact herase (by rw [State.serves, hpc])
  | tell _ =>
      unfold State.send
      split <;> exact he
  | clear _ => cases hcleared
  | _ => exact he

/-- A step of `cleanup_sockets` that does not end the process counts down. -/
theorem advances (hmove : Move names s a t) (hloop : s.pc.inLoop = false)
    (halive : t.pc ≠ .killed) : t.pc.left + (if a = .next then 1 else 0) = s.pc.left := by
  cases hmove with
  | inside hinside => cases hloop.symm.trans hinside.loop
  | interrupted hpc | register hpc _ _ _ | handle hpc | ends hpc _ | fails hpc | leave hpc _ =>
      rw [hpc] at hloop
      cases hloop
  | sigint _ | peerCloses _ => rfl
  | @tell fd fds hpc =>
      have hnext : (s.send fd { s with
          pc := .closeClient fd fds, told := s.told ++ [fd] }).pc = .closeClient fd fds := by
        revert halive
        unfold State.send
        split
        · exact fun _ => rfl
        · exact fun halive => absurd rfl halive
        · exact fun _ => rfl
      rw [hnext, hpc]
      simp only [Pc.left, List.length_cons, if_true]
      omega
  | close hpc | clear hpc | closeMaster hpc | removeFile hpc =>
      rw [hpc]
      rfl

theorem isolates_iff (hmove : Move names s a t) (hconsistent : Consistent names s)
    (hbroadcast : Broadcast s) : Isolates s a t ↔ SendsToOpen s a := by
  have halive := hmove.alive_iff hconsistent hbroadcast
  refine ⟨fun h => halive.mp h.alive, fun hopen => ?_⟩
  have hbroadcast' := hbroadcast.move hconsistent hmove
  refine ⟨halive.mpr hopen, fun hcleared e he hserves =>
    hmove.others hconsistent hcleared he hserves,
    fun hloop => hmove.advances hloop (halive.mpr hopen),
    fun hloop => nextStep_of_cleanup hloop (halive.mpr hopen), fun hexited => ?_⟩
  have htold := hbroadcast'.told (.inr (by rw [hexited]; rfl))
  rw [hexited] at htold
  exact ⟨by simpa [Pc.toTell] using htold, hbroadcast'.file hexited⟩

end Move

/-- The clients that go away do no harm on a run exactly when networkMonitor sends to
none of them. -/
theorem isolation_iff (names : List String) (master : Nat) (running : Bool) (acts : List Action) :
    StepsMeet (step names) (IsolatesNext names) (State.initial master running) acts ↔
      StepsMeet (step names) SendsToOpen (State.initial master running) acts := by
  refine stepsMeet_iff (I := fun s => Consistent names s ∧ Broadcast s) ?_ ?_
    ⟨consistent_initial names master running, broadcast_initial master running⟩ acts
  · rintro s a t ⟨hconsistent, hbroadcast⟩ hstep
    exact ⟨hconsistent.move (step_move hstep), hbroadcast.move hconsistent (step_move hstep)⟩
  · rintro s a t ⟨hconsistent, hbroadcast⟩ hstep
    have hiff := (step_move hstep).isolates_iff hconsistent hbroadcast
    constructor
    · exact fun h => hiff.mp (h t hstep)
    · intro hopen u hu
      obtain rfl : t = u := Option.some.inj (hstep.symm.trans hu)
      exact hiff.mpr hopen

/-- Two clients are registered; one sends "Ready" and closes its end before it is
answered. -/
def leaveBeforeReply : List Action :=
  acceptClient 3 4 0 ++ acceptClient 3 5 1 ++ List.replicate 5 .next ++
    [.selectReturns [4], .testMaster false, .next, .next, .received "Ready", .peerCloses 4]

theorem killed_by_leaving_client :
    ∃ s t, run (step ["eth0", "eth1"]) (State.initial 3 true) leaveBeforeReply = some s ∧
      s.clientFds.keys = [4, 5] ∧ step ["eth0", "eth1"] s .next = some t ∧ t.pc = .killed ∧
      t.told = [] ∧ t.socketFile = true ∧ ¬ IsolatesNext ["eth0", "eth1"] s .next := by
  refine ⟨_, _, rfl, rfl, rfl, rfl, rfl, rfl, fun hisolates => ?_⟩
  exact (hisolates _ rfl).alive rfl

end Unx511.Assignment2.SelectLoop
