import Unx511.Assignment2.Registry

/-!
Which interface the names in `client_fds` and in the alerts stand for.
networkMonitor gives a new connection the first name that is not in use, which is
the name the monitor was forked for exactly when the names before it are all in
use.
-/

namespace Unx511.Assignment2

open Unx511.Machine

/-- Each registered connection has the name that its monitor was forked for, and
so has each alert. Monitor `k` is the one forked for the `k`-th name. -/
structure Attributed (cfg : Config) (s : State) : Prop where
  entries : ∀ fd name k, (fd, name) ∈ s.server.clientFds → s.server.peer fd = some k →
    cfg.names[k]? = some name
  alerts : ∀ k name, (k, name) ∈ s.server.alerts → cfg.names[k]? = some name

/-- A connection is accepted while every interface listed before its monitor's
own is registered. -/
def EarlierRegistered (cfg : Config) (s : State) : Action → Prop
  | .accept _ => ∀ k ∈ s.backlog.head?, ∀ name ∈ cfg.names.take k,
      name ∈ s.server.clientFds.values
  | _ => True

instance (cfg : Config) (s : State) (a : Action) : Decidable (EarlierRegistered cfg s a) := by
  cases a <;> unfold EarlierRegistered <;> infer_instance

theorem earlierRegistered_of_not_accept {cfg : Config} {s : State} {a : Action}
    (h : ∀ fd, a ≠ .accept fd) : EarlierRegistered cfg s a := by
  cases a with
  | accept fd => exact absurd rfl (h fd)
  | _ => trivial

/-- The first free name is the `k`-th one, which is free, exactly when the names
before it are in use. -/
theorem freeName_eq_iff {names : List String} {clientFds : OrderedMap Nat String} {k : Nat}
    {name : String} (hnodup : names.Nodup) (hname : freeName names clientFds = some name)
    (hfree : ∀ own, names[k]? = some own → own ∉ clientFds.values) :
    names[k]? = some name ↔ ∀ earlier ∈ names.take k, earlier ∈ clientFds.values := by
  obtain ⟨hunused, i, hi, hi_name, hbefore⟩ := List.find?_eq_some_iff_getElem.mp hname
  have hnot : name ∉ clientFds.values := by simpa using hunused
  constructor
  · intro hk
    obtain ⟨hklt, hk_name⟩ := List.getElem?_eq_some_iff.mp hk
    have hki : k = i := (List.Nodup.getElem_inj_iff hnodup).mp (hk_name.trans hi_name.symm)
    subst hki
    intro earlier hearlier
    obtain ⟨j, hj, rfl⟩ := List.mem_take_iff_getElem.mp hearlier
    have hjk : j < k := by omega
    simpa using hbefore j hjk
  · intro hused
    have hle : k ≤ i := by
      by_contra hlt
      apply hnot
      apply hused
      rw [← hi_name]
      exact List.mem_take_iff_getElem.mpr ⟨i, by omega, rfl⟩
    have hklt : k < names.length := by omega
    rcases Nat.lt_or_eq_of_le hle with hlt | rfl
    · have hown : names[k] ∈ clientFds.values := by simpa using hbefore k hlt
      exact absurd hown (hfree _ (List.getElem?_eq_getElem hklt))
    · rw [List.getElem?_eq_getElem hklt, hi_name]

namespace Attributed

variable {cfg : Config} {s t : State} {fd : Nat}

theorem initial (cfg : Config) (running : Bool) : Attributed cfg (State.initial running) where
  entries := fun _ _ _ hmem => by cases hmem
  alerts := nofun

/-- A step that registers nothing and prints no alert. -/
theorem frame (h : Attributed cfg s)
    (hentries : ∀ e ∈ t.server.clientFds, e ∈ s.server.clientFds)
    (hpeer : ∀ fd k, t.server.peer fd = some k → s.server.peer fd = some k)
    (halerts : t.server.alerts = s.server.alerts) : Attributed cfg t := by
  refine ⟨?_, ?_⟩
  · intro fd name k hmem hk
    exact h.entries fd name k (hentries _ hmem) (hpeer fd k hk)
  · rw [halerts]
    exact h.alerts

theorem closeFd (h : Attributed cfg s) (fd : Nat) : Attributed cfg (s.closeFd fd) := by
  refine h.frame ?_ ?_ ?_
  · rw [closeFd_server]
    exact fun _ => id
  · intro f k hf
    rw [closeFd_server] at hf
    change Function.update s.server.peer fd none f = some k at hf
    rcases eq_or_ne f fd with rfl | hne
    · rw [Function.update_self] at hf
      cases hf
    · rw [Function.update_of_ne hne] at hf
      exact hf
  · rw [closeFd_server]

theorem dropClient (h : Attributed cfg s) (fd : Nat) : Attributed cfg (s.dropClient fd) := by
  have hclosed := h.closeFd fd
  apply hclosed.frame
  · intro e he
    rw [closeFd_server]
    exact (OrderedMap.mem_erase.mp he).1
  · exact fun _ _ => id
  · rfl

theorem send {message : String} {sources : List Nat} {next : ServerPc} (h : Attributed cfg s)
    (hsent : Sent s fd message sources next t) : Attributed cfg t := by
  obtain ⟨hfds, halerts, _, hpeer⟩ := hsent.server_frame
  refine h.frame ?_ ?_ halerts
  · rw [hfds]
    exact fun _ => id
  · intro f k hf
    rcases hpeer with ⟨_, hpeer⟩ | ⟨_, hpeer⟩
    · rwa [hpeer] at hf
    · rw [hpeer] at hf
      cases hf

theorem handle {source : Nat} {name message : String} {fds ready : List Nat}
    (h : Attributed cfg s) (hmem : (fd, name) ∈ s.server.clientFds)
    (hpeer : s.server.peer fd = some source)
    (hhandled : Handled s fd source name fds ready message t) : Attributed cfg t := by
  cases hhandled with
  | ready => exact h.send (serverSend_sent s fd _ _ _)
  | monitoring | unknown _ => exact h.frame (fun _ => id) (fun _ _ => id) rfl
  | linkDown =>
      have halert : Attributed cfg
          { s with server.alerts := s.server.alerts ++ [(source, name)] } := by
        refine ⟨h.entries, ?_⟩
        intro k iface hnew
        rcases List.mem_append.mp hnew with hold | hlast
        · exact h.alerts k iface hold
        · cases List.mem_singleton.mp hlast
          exact h.entries fd name source hmem hpeer
      exact halert.send (serverSend_sent _ fd _ _ _)
  | done => exact (h.dropClient fd).frame (fun _ => id) (fun _ _ => id) rfl

/-- The name of a monitor that waits in the backlog is not in use. -/
theorem own_free {own : String} {k : Nat} {rest : List Nat} (h : Attributed cfg s)
    (hregistered : Registered s) (hnodup : cfg.names.Nodup)
    (hclean : s.server.pc.inCleanup = false) (hbacklog : s.backlog = k :: rest)
    (hown : cfg.names[k]? = some own) : own ∉ s.server.clientFds.values := by
  intro hused
  obtain ⟨fd, hmem⟩ := OrderedMap.mem_values.mp hused
  obtain ⟨j, hj⟩ := hregistered.connected hclean fd (OrderedMap.mem_keys.mpr ⟨own, hmem⟩)
  have hj_own := h.entries fd own j hmem hj
  have hklt : k < cfg.names.length := (List.getElem?_eq_some_iff.mp hown).1
  have hkj : k = j := (List.getElem?_inj hklt hnodup).mp (hown.trans hj_own.symm)
  apply hregistered.consistent.wired.not_mem_of_peer hj
  rw [hbacklog, hkj]
  exact List.mem_cons_self

theorem effect {a : Action} (h : Attributed cfg s) (hregistered : Registered s)
    (hnodup : cfg.names.Nodup) (heffect : Effect cfg s a t) :
    Attributed cfg t ↔ EarlierRegistered cfg s a := by
  cases heffect with
  | @acceptNamed fd k rest _ name hpc hbacklog _ hname =>
      have hfree : ∀ own, cfg.names[k]? = some own → own ∉ s.server.clientFds.values := by
        intro own hown
        exact h.own_free hregistered hnodup (by rw [hpc]; rfl) hbacklog hown
      have hcond : EarlierRegistered cfg s (.accept fd) ↔
          ∀ earlier ∈ cfg.names.take k, earlier ∈ s.server.clientFds.values := by
        unfold EarlierRegistered
        simp [hbacklog]
      rw [hcond, ← freeName_eq_iff hnodup hname hfree]
      constructor
      · intro hnew
        exact hnew.entries fd name k (OrderedMap.mem_set.mpr (.inl rfl))
          (Function.update_self _ _ _)
      · intro hk
        refine ⟨?_, h.alerts⟩
        intro f iface j hmem hj
        change Function.update s.server.peer fd (some k) f = some j at hj
        rcases OrderedMap.mem_set.mp hmem with heq | ⟨hold, hne⟩
        · cases heq
          rw [Function.update_self] at hj
          cases hj
          exact hk
        · rw [Function.update_of_ne hne] at hj
          exact h.entries f iface j hold hj
  | @acceptRefused fd k rest _ hpc hbacklog hname =>
      have hall : ∀ name ∈ cfg.names, name ∈ s.server.clientFds.values := by
        intro name hmem
        simpa using List.find?_eq_none.mp hname name hmem
      refine iff_of_true (h.frame (fun _ => id) (fun _ _ => id) rfl) ?_
      intro j _ name hname
      exact hall name (List.mem_of_mem_take hname)
  | goto hact _ _ _ _ _ _ =>
      exact iff_of_true (h.frame (fun _ => id) (fun _ _ => id) rfl)
        (earlierRegistered_of_not_accept hact)
  | exitMonitor hact _ _ =>
      exact iff_of_true (h.frame (fun _ => id) (fun _ _ => id) rfl)
        (earlierRegistered_of_not_accept hact)
  | @drop fd _ _ _ _ =>
      refine iff_of_true ?_ trivial
      exact (h.dropClient fd).frame (fun _ => id) (fun _ _ => id) rfl
  | @handle fd source message fds ready hpc =>
      have hfd : fd ∈ s.server.clientFds.keys := hregistered.visited fd (by rw [hpc]; rfl)
      have hpeer := hregistered.consistent.handling fd source message fds ready hpc
      obtain ⟨name, hmem, hhandled⟩ := handleMessage_handled source message fds ready hfd
      exact iff_of_true (h.handle hmem hpeer hhandled) trivial
  | @tell fd fds _ => exact iff_of_true (h.send (serverSend_sent s fd _ _ _)) trivial
  | clear _ =>
      refine iff_of_true (h.frame ?_ (fun _ _ => id) rfl) trivial
      intro e he
      cases he
  | @closeClient fd _ _ =>
      refine iff_of_true ?_ trivial
      exact (h.closeFd fd).frame (fun _ => id) (fun _ _ => id) rfl
  | exit _ => exact iff_of_true (h.frame (fun _ => id) nofun rfl) trivial
  | sigintServer _ =>
      obtain ⟨_, hfds, hpeer, halerts, _⟩ := sigHandlerServer_frame s
      refine iff_of_true (h.frame ?_ ?_ halerts) trivial
      · rw [hfds]
        exact fun _ => id
      · rw [hpeer]
        exact fun _ _ => id
  | selectFails _ | fork _ _ _ | receive _ _ _ | launch _ _ | localStep _ | connect _ _
  | send _ _ | recv _ _ | recvEnds _ _ _ | interrupted _ _ | sigint _ _ =>
      exact iff_of_true (h.frame (fun _ => id) (fun _ _ => id) rfl) trivial

end Attributed

/-- Names and alerts are right in every state of a run exactly when every
connection is accepted while the interfaces listed before its own are
registered. -/
theorem attribution_iff (cfg : Config) (hnodup : cfg.names.Nodup) (running : Bool)
    (as : List Action) :
    StatesMeet (step cfg) (Attributed cfg) (State.initial running) as ↔
      StepsMeet (step cfg) (EarlierRegistered cfg) (State.initial running) as := by
  apply statesMeet_iff_stepsMeet (I := Registered)
  · intro s a t hregistered hstep
    exact hregistered.effect (step_effect hstep)
  · intro s a t hregistered hattributed hstep
    exact hattributed.effect hregistered hnodup (step_effect hstep)
  · exact Registered.initial running
  · exact Attributed.initial cfg running

/-- Two interfaces. -/
def twoNames : Config where
  names := ["eth0", "eth1"]
  restarts := true

/-- Monitor 0 is stopped and has sent its "Done" before monitor 1 connects;
then monitor 1 reports its interface down. -/
def finishedBefore : List Action :=
  [.fork, .fork, .server] ++
  connecting 0 ++ acceptAs 4 0 ++ greeting 0 4 ++
  [.sigint 0, .monitor 0 "up", .send 0] ++ serve 4 ++ [.close 0] ++
  connecting 1 ++ acceptAs 4 0 ++ greeting 1 4 ++
  [.monitor 1 "up", .monitor 1 "down", .send 1] ++ serve 4

/-- Both monitors have connected before either reports. -/
def connectedBoth : List Action :=
  [.fork, .fork, .server] ++
  connecting 0 ++ acceptAs 4 0 ++ connecting 1 ++ acceptAs 5 1

/-- The monitor that connects in an action. -/
def connects : Action → Option Nat
  | .connect k => some k
  | _ => none

theorem attribution_iff_both :
    StatesMeet (step twoNames) (Attributed twoNames) (State.initial true) connectedBoth :=
  (attribution_iff twoNames (by decide) true connectedBoth).mpr (by decide)

/-- The monitors connect in the order they were forked, and the alert for "eth1"
is printed with the name "eth0". -/
theorem name_given_twice :
    ∃ s, run (step twoNames) (State.initial true) finishedBefore = some s ∧
      finishedBefore.filterMap connects = [0, 1] ∧
      s.server.peer 4 = some 1 ∧ (4, "eth0") ∈ s.server.clientFds.entries ∧
      s.server.alerts = [(1, "eth0")] ∧
      ¬ Attributed twoNames s := by
  refine ⟨_, rfl, by decide, by decide, by decide, by decide, ?_⟩
  intro hattributed
  exact absurd (hattributed.alerts 1 "eth0" (by decide)) (by decide)

end Unx511.Assignment2
