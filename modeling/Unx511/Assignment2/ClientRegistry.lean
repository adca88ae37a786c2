import Unx511.Assignment2.SelectLoop

/-!
`client_fds` and the descriptors. In the loop the keys of the map are exactly the
open descriptors of clients, whatever the clients and the system calls do, and
`cleanup_sockets` closes each of them once.
-/

namespace Unx511.Assignment2.SelectLoop

open Unx511.Machine

/-- `cleanup_sockets` is at its loop over the clients. -/
def Pc.telling : Pc → Bool
  | .sendShutDown _ | .closeClient _ _ => true
  | _ => false

theorem Pc.outside_of_inLoop {pc : Pc} (h : pc.inLoop = true) :
    pc.telling = false ∧ pc.cleared = false := by
  cases pc <;> first | exact ⟨rfl, rfl⟩ | cases h

structure Consistent (names : List String) (s : State) : Prop where
  keys : s.pc.inLoop = true → ∀ fd, fd ∈ s.clientFds.keys ↔ s.conn fd ≠ .free
  nodup : s.pc.visits.Nodup
  visited : ∀ fd ∈ s.pc.visits, fd ∈ s.clientFds.keys
  distinct : s.clientFds.values.Nodup
  known : ∀ name ∈ s.clientFds.values, name ∈ names
  used : s.misused = false
  telling : s.pc.telling = true →
    s.remaining = s.clientFds.keys ∧ s.closed ++ s.pc.toClose = s.clientFds.keys
  toClose : s.pc.telling = true ∨ s.pc.cleared = true →
    ∀ fd, fd ∈ s.pc.toClose ↔ s.conn fd ≠ .free
  cleared : s.pc.cleared = true →
    s.clientFds = OrderedMap.empty ∧ s.closed = s.remaining ∧ s.remaining.Nodup

theorem consistent_initial (names : List String) (master : Nat) (running : Bool) :
    Consistent names (State.initial master running) where
  keys := fun _ _ => ⟨nofun, fun h => absurd rfl h⟩
  nodup := List.nodup_nil
  visited := nofun
  distinct := List.nodup_nil
  known := nofun
  used := rfl
  telling := nofun
  toClose := by rintro (h | h) <;> cases h
  cleared := nofun

namespace Consistent

variable {names : List String} {s t : State}

/-- A state of the loop needs only the first half. -/
theorem of_loop (hloop : t.pc.inLoop = true)
    (hkeys : ∀ fd, fd ∈ t.clientFds.keys ↔ t.conn fd ≠ .free) (hnodup : t.pc.visits.Nodup)
    (hvisited : ∀ fd ∈ t.pc.visits, fd ∈ t.clientFds.keys) (hdistinct : t.clientFds.values.Nodup)
    (hknown : ∀ name ∈ t.clientFds.values, name ∈ names) (hused : t.misused = false) :
    Consistent names t := by
  have hout := Pc.outside_of_inLoop hloop
  refine ⟨fun _ => hkeys, hnodup, hvisited, hdistinct, hknown, hused, fun h => ?_, fun h => ?_,
    fun h => ?_⟩
  · cases hout.1.symm.trans h
  · rcases h with h | h
    · cases hout.1.symm.trans h
    · cases hout.2.symm.trans h
  · cases hout.2.symm.trans h

/-- The loop moves on without touching the map or a descriptor. -/
theorem inside (h : Consistent names s) {pc : Pc} (running : Bool) (readFds : List Nat)
    (hloop : s.pc.inLoop = true) (hloop' : pc.inLoop = true)
    (hvisits : pc.visits.Sublist s.pc.visits ∨ pc.visits = s.clientFds.keys) :
    Consistent names { s with pc := pc, running := running, readFds := readFds } := by
  refine .of_loop hloop' (h.keys hloop) ?_ ?_ h.distinct h.known h.used
  · rcases hvisits with hsub | heq
    · exact hsub.nodup h.nodup
    · change pc.visits.Nodup
      rw [heq]
      exact OrderedMap.keys_nodup _
  · rcases hvisits with hsub | heq
    · exact fun fd hfd => h.visited fd (hsub.subset hfd)
    · intro fd hfd
      rwa [← heq]

theorem register (h : Consistent names s) {fd : Nat} {name : String} (hpc : s.pc = .accept)
    (hfree : s.conn fd = .free) (hname : freeName names s.clientFds = some name) :
    Consistent names { s with
      pc := .snapshot
      clientFds := s.clientFds.set fd name
      conn := Function.update s.conn fd .connected } := by
  have hkeys := h.keys (by rw [hpc]; rfl)
  have hnew : fd ∉ s.clientFds.keys := by
    rw [hkeys, hfree]
    exact fun hne => hne rfl
  have hunused : name ∉ s.clientFds.values := by simpa using List.find?_some hname
  refine .of_loop rfl ?_ List.nodup_nil nofun ?_ ?_ h.used
  · intro f
    rw [OrderedMap.mem_keys_set]
    rcases eq_or_ne f fd with rfl | hne
    · simp
    · simpa [hne] using hkeys f
  · exact OrderedMap.values_set_nodup hnew hunused h.distinct
  · intro v hv
    obtain ⟨k, hk⟩ := OrderedMap.mem_values.mp hv
    rcases OrderedMap.mem_set.mp hk with heq | ⟨hold, _⟩
    · cases heq
      exact List.mem_of_find?_eq_some hname
    · exact h.known v (OrderedMap.mem_values.mpr ⟨k, hold⟩)

theorem drop (h : Consistent names s) {fd : Nat} {fds : List Nat} (hloop : s.pc.inLoop = true)
    (hvisits : s.pc.visits = fd :: fds) :
    Consistent names ((s.dropClient fd).goto (.check fds)) := by
  have hkeys := h.keys hloop
  have hnodup : fd ∉ fds ∧ fds.Nodup := List.nodup_cons.mp (hvisits ▸ h.nodup)
  have hopen : s.conn fd ≠ .free := by
    rw [← hkeys]
    exact h.visited fd (by rw [hvisits]; exact List.mem_cons_self)
  refine .of_loop rfl ?_ hnodup.2 ?_ ?_ ?_ ?_
  · intro f
    change f ∈ (s.clientFds.erase fd).keys ↔ Function.update s.conn fd .free f ≠ .free
    rw [OrderedMap.mem_keys_erase]
    rcases eq_or_ne f fd with rfl | hne
    · simp
    · simpa [hne] using hkeys f
  · intro f hf
    have hne : f ≠ fd := by
      rintro rfl
      exact hnodup.1 hf
    have hold : f ∈ s.clientFds.keys :=
      h.visited f (by rw [hvisits]; exact List.mem_cons_of_mem _ hf)
    exact OrderedMap.mem_keys_erase.mpr ⟨hold, hne⟩
  · exact (OrderedMap.values_erase_sublist _ fd).nodup h.distinct
  · exact fun v hv => h.known v ((OrderedMap.values_erase_sublist _ fd).subset hv)
  · change (s.misused || decide (s.conn fd = .free)) = false
    simp [h.used, hopen]

/-- `operator[]` finds the entry of a client that is visited. -/
theorem subscript_eq (h : Consistent names s) {fd : Nat} (hfd : fd ∈ s.pc.visits) :
    { s with clientFds := (subscript s.clientFds fd).2 } = s := by
  obtain ⟨name, _, hsub⟩ := subscript_of_mem (h.visited fd hfd)
  rw [hsub]

theorem kill (h : Consistent names s) : Consistent names s.kill where
  keys := nofun
  nodup := List.nodup_nil
  visited := nofun
  distinct := h.distinct
  known := h.known
  used := h.used
  telling := nofun
  toClose := by rintro (h | h) <;> cases h
  cleared := nofun

theorem send (h : Consistent names s) {fd : Nat} (hopen : s.conn fd ≠ .free)
    (hnext : Consistent names t) : Consistent names (s.send fd t) := by
  unfold State.send
  split
  case h_1 => exact hnext
  case h_2 => exact h.kill
  case h_3 hfree => exact absurd hfree hopen

/-- What comes of a message of a client in the map. -/
inductive Handled (s : State) (fd : Nat) (fds : List Nat) : State → Prop
  | checked (hsend : ∀ f, s.sendsTo = some f → s.conn f = .connected) :
      Handled s fd fds (s.goto (.check fds))
  | killed (hsend : s.sendsTo = some fd) (hconn : s.conn fd = .peerGone) :
      Handled s fd fds s.kill
  | dropped (hsend : s.sendsTo = none) : Handled s fd fds ((s.dropClient fd).goto (.check fds))

theorem handled (h : Consistent names s) {fd : Nat} {message : String} {fds : List Nat}
    (hpc : s.pc = .handle fd message fds) :
    Handled s fd fds (handleMessage fd message fds s) := by
  have hfd : fd ∈ s.pc.visits := by rw [hpc]; exact List.mem_cons_self
  have hopen : s.conn fd ≠ .free :=
    (h.keys (by rw [hpc]; rfl) fd).mp (h.visited fd hfd)
  unfold handleMessage
  dsimp only
  rw [h.subscript_eq hfd]
  split
  case h_1 hmessage | h_2 hmessage =>
    have hsend : s.sendsTo = some fd := by
      rw [State.sendsTo, hpc]
      simp only [hmessage]
    unfold State.send
    split
    case h_1 hconn =>
      refine .checked fun f hf => ?_
      obtain rfl : fd = f := Option.some.inj (hsend.symm.trans hf)
      exact hconn
    case h_2 hconn => exact .killed hsend hconn
    case h_3 hfree => exact absurd hfree hopen
  case h_3 hmessage =>
    refine .dropped ?_
    rw [State.sendsTo, hpc]
    simp only [hmessage]
  case h_4 hmessage | h_5 hmessage =>
    refine .checked ?_
    rw [State.sendsTo, hpc]
    simp only [hmessage]
    nofun

theorem handle (h : Consistent names s) {fd : Nat} {message : String} {fds : List Nat}
    (hpc : s.pc = .handle fd message fds) :
    Consistent names (handleMessage fd message fds s) := by
  have hloop : s.pc.inLoop = true := by rw [hpc]; rfl
  have hvisits : s.pc.visits = fd :: fds := by rw [hpc]; rfl
  have hhandled := h.handled hpc
  generalize handleMessage fd message fds s = t at hhandled
  cases hhandled with
  | checked _ =>
      refine h.inside s.running s.readFds hloop rfl (.inl ?_)
      rw [hvisits]
      exact List.sublist_cons_self fd fds
  | killed _ _ => exact h.kill
  | dropped _ => exact h.drop hloop hvisits

theorem leave (h : Consistent names s) (hpc : s.pc = .test) :
    Consistent names { s with
      pc := .sendShutDown s.clientFds.keys
      remaining := s.clientFds.keys
      told := []
      closed := [] } where
  keys := nofun
  nodup := List.nodup_nil
  visited := nofun
  distinct := h.distinct
  known := h.known
  used := h.used
  telling := fun _ => ⟨rfl, rfl⟩
  toClose := fun _ => h.keys (by rw [hpc]; rfl)
  cleared := nofun

theorem tell (h : Consistent names s) {fd : Nat} {fds : List Nat}
    (hpc : s.pc = .sendShutDown (fd :: fds)) :
    Consistent names (s.send fd { s with pc := .closeClient fd fds, told := s.told ++ [fd] }) := by
  have htelling := h.telling (by rw [hpc]; rfl)
  have htoClose := h.toClose (.inl (by rw [hpc]; rfl))
  rw [hpc] at htelling htoClose
  have hopen : s.conn fd ≠ .free := (htoClose fd).mp List.mem_cons_self
  refine h.send hopen ⟨nofun, List.nodup_nil, nofun, h.distinct, h.known, h.used,
    fun _ => htelling, fun _ => htoClose, nofun⟩

theorem close (h : Consistent names s) {fd : Nat} {fds : List Nat}
    (hpc : s.pc = .closeClient fd fds) :
    Consistent names
      { s.closeFd fd with pc := .sendShutDown fds, closed := s.closed ++ [fd] } := by
  have htelling := h.telling (by rw [hpc]; rfl)
  have htoClose := h.toClose (.inl (by rw [hpc]; rfl))
  rw [hpc] at htelling htoClose
  have hopen : s.conn fd ≠ .free := (htoClose fd).mp List.mem_cons_self
  have hnodup : (s.closed ++ fd :: fds).Nodup := by
    have hkeys := OrderedMap.keys_nodup s.clientFds
    rwa [← htelling.2] at hkeys
  have hfresh : fd ∉ fds := (List.nodup_cons.mp (List.nodup_append.mp hnodup).2.1).1
  refine ⟨nofun, List.nodup_nil, nofun, h.distinct, h.known, ?_, ?_, ?_, nofun⟩
  · change (s.misused || decide (s.conn fd = .free)) = false
    simp [h.used, hopen]
  · refine fun _ => ⟨htelling.1, ?_⟩
    change (s.closed ++ [fd]) ++ fds = s.clientFds.keys
    rw [List.append_assoc]
    exact htelling.2
  · intro _ f
    change f ∈ fds ↔ Function.update s.conn fd .free f ≠ .free
    rcases eq_or_ne f fd with rfl | hne
    · simpa using hfresh
    · simpa [hne, Pc.toClose] using htoClose f

theorem clear (h : Consistent names s) (hpc : s.pc = .sendShutDown []) :
    Consistent names { s with pc := .closeMaster, clientFds := OrderedMap.empty } := by
  have htelling := h.telling (by rw [hpc]; rfl)
  have htoClose := h.toClose (.inl (by rw [hpc]; rfl))
  rw [hpc] at htelling htoClose
  have hclosed : s.closed = s.remaining := by
    rw [htelling.1, ← htelling.2]
    exact (List.append_nil _).symm
  refine ⟨nofun, List.nodup_nil, nofun, List.nodup_nil, nofun, h.used, nofun, fun _ => htoClose,
    fun _ => ⟨rfl, hclosed, ?_⟩⟩
  change s.remaining.Nodup
  rw [htelling.1]
  exact OrderedMap.keys_nodup _

/-- After the map has been cleared nothing happens to the clients. -/
theorem afterClear (h : Consistent names s) (hcleared : s.pc.cleared = true)
    (hpc : t.pc.cleared = true) (hclientFds : t.clientFds = s.clientFds) (hconn : t.conn = s.conn)
    (hmisused : t.misused = s.misused) (hremaining : t.remaining = s.remaining)
    (hclosed : t.closed = s.closed) : Consistent names t := by
  have hsplit : ∀ pc : Pc, pc.cleared = true →
      pc.inLoop = false ∧ pc.telling = false ∧ pc.visits = [] ∧ pc.toClose = [] := by
    intro pc
    cases pc <;> first | exact fun _ => ⟨rfl, rfl, rfl, rfl⟩ | nofun
  obtain ⟨hloop, htelling, hvisits, htoClose⟩ := hsplit _ hpc
  have hnone := (hsplit _ hcleared).2.2.2
  refine ⟨fun hin => ?_, ?_, ?_, ?_, ?_, hmisused.trans h.used, fun htell => ?_, ?_, fun _ => ?_⟩
  · cases hloop.symm.trans hin
  · rw [hvisits]
    exact List.nodup_nil
  · rw [hvisits]
    nofun
  · rw [hclientFds]
    exact h.distinct
  · rw [hclientFds]
    exact h.known
  · cases htelling.symm.trans htell
  · intro _
    rw [htoClose, hconn, ← hnone]
    exact h.toClose (.inr hcleared)
  · rw [hclientFds, hclosed, hremaining]
    exact h.cleared hcleared

theorem peerCloses (h : Consistent names s) {fd : Nat} (hconn : s.conn fd = .connected) :
    Consistent names { s with conn := Function.update s.conn fd .peerGone } := by
  have hsame : ∀ f, Function.update s.conn fd .peerGone f ≠ .free ↔ s.conn f ≠ .free := by
    intro f
    rcases eq_or_ne f fd with rfl | hne
    · simp [hconn]
    · simp [hne]
  refine ⟨fun hloop f => ?_, h.nodup, h.visited, h.distinct, h.known, h.used, h.telling,
    fun hout f => ?_, h.cleared⟩
  · exact (h.keys hloop f).trans (hsame f).symm
  · exact (h.toClose hout f).trans (hsame f).symm

theorem move {a : Action} (h : Consistent names s) (hmove : Move names s a t) :
    Consistent names t := by
  cases hmove with
  | inside hinside => exact h.inside _ _ hinside.loop hinside.loop' hinside.visits
  | interrupted hpc =>
      have htest : Consistent names (s.goto .test) :=
        h.inside s.running s.readFds (by rw [hpc]; rfl) rfl (.inl (List.nil_sublist _))
      exact ⟨htest.keys, htest.nodup, htest.visited, htest.distinct, htest.known, htest.used,
        htest.telling, htest.toClose, htest.cleared⟩
  | sigint _ =>
      exact ⟨h.keys, h.nodup, h.visited, h.distinct, h.known, h.used, h.telling, h.toClose,
        h.cleared⟩
  | register hpc _ hfree hname => exact h.register hpc hfree hname
  | handle hpc => exact h.handle hpc
  | ends hpc _ => exact h.drop (by rw [hpc]; rfl) (by rw [hpc]; rfl)
  | fails hpc =>
      rw [h.subscript_eq (by rw [hpc]; exact List.mem_cons_self)]
      exact h.drop (by rw [hpc]; rfl) (by rw [hpc]; rfl)
  | leave hpc _ => exact h.leave hpc
  | tell hpc => exact h.tell hpc
  | close hpc => exact h.close hpc
  | clear hpc => exact h.clear hpc
  | closeMaster hpc | removeFile hpc =>
      exact h.afterClear (by rw [hpc]; rfl) rfl rfl rfl rfl rfl rfl
  | peerCloses hconn => exact h.peerCloses hconn

theorem reaches (h : Consistent names s) (hreaches : Reaches (step names) anyAction s t) :
    Consistent names t :=
  hreaches.invariant h fun _ _ _ hu _ hstep => hu.move (step_move hstep)

end Consistent

/-- What holds of `client_fds` and the descriptors in a state. -/
structure RegistryCorrect (names : List String) (s : State) : Prop where
  /-- In the loop the keys are the descriptors that were accepted and not closed. -/
  keys : s.pc.inLoop = true → ∀ fd, fd ∈ s.clientFds.keys ↔ s.conn fd ≠ .free
  /-- No descriptor was closed twice, or read or written after it was closed. -/
  used : s.misused = false
  distinct : s.clientFds.values.Nodup
  known : ∀ name ∈ s.clientFds.values, name ∈ names
  bounded : s.clientFds.keys.length ≤ names.dedup.length
  /-- `operator[]` creates no entry for the client that is visited. -/
  subscript : ∀ fd ∈ s.pc.visits, (subscript s.clientFds fd).2 = s.clientFds
  /-- `cleanup_sockets` is called with the clients of the map. -/
  remaining : s.pc.telling = true → s.remaining = s.clientFds.keys
  /-- It has closed each of them once, and the map is empty. -/
  cleared : s.pc.cleared = true →
    s.clientFds = OrderedMap.empty ∧ s.closed = s.remaining ∧ s.remaining.Nodup ∧
      ∀ fd, s.conn fd = .free

theorem Consistent.bounded {names : List String} {s : State} (h : Consistent names s) :
    s.clientFds.keys.length ≤ names.dedup.length := by
  have hlength : s.clientFds.keys.length = s.clientFds.values.length := by
    simp [OrderedMap.keys, OrderedMap.values]
  rw [hlength]
  refine (List.Nodup.subperm h.distinct fun name hname => ?_).length_le
  exact List.mem_dedup.mpr (h.known name hname)

/-- The registry is correct in every state that networkMonitor can reach, for every list
of names, whatever its clients and the system calls do. -/
theorem registry_correct {names : List String} {master : Nat} {running : Bool} {s : State}
    (h : Reaches (step names) anyAction (State.initial master running) s) :
    RegistryCorrect names s := by
  have hconsistent : Consistent names s := (consistent_initial names master running).reaches h
  refine ⟨hconsistent.keys, hconsistent.used, hconsistent.distinct, hconsistent.known,
    hconsistent.bounded, ?_, fun htelling => (hconsistent.telling htelling).1, ?_⟩
  · intro fd hfd
    have hsub := hconsistent.subscript_eq hfd
    exact congrArg State.clientFds hsub
  · intro hcleared
    obtain ⟨hempty, hclosed, hnodup⟩ := hconsistent.cleared hcleared
    refine ⟨hempty, hclosed, hnodup, fun fd => ?_⟩
    have htoClose := hconsistent.toClose (.inr hcleared) fd
    have hnone : s.pc.toClose = [] := by
      revert hcleared
      cases s.pc <;> first | exact fun _ => rfl | nofun
    by_contra hopen
    have hmem := htoClose.mpr hopen
    rw [hnone] at hmem
    cases hmem

/-- Two clients come, and networkMonitor is shut down. -/
def comeAndGo : List Action := acceptClient 3 4 0 ++ acceptClient 3 5 1 ++ shutDown 2

theorem registry_correct_come_and_go :
    ∃ s, run (step ["eth0", "eth1"]) (State.initial 3 true) comeAndGo = some s ∧
      s.pc = .exited ∧ s.closed = [4, 5] ∧ RegistryCorrect ["eth0", "eth1"] s :=
  ⟨_, rfl, rfl, rfl,
    registry_correct (Reaches.of_any_run (s := State.initial 3 true) comeAndGo rfl)⟩

end Unx511.Assignment2.SelectLoop
