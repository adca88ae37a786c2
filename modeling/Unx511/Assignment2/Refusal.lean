import Unx511.Assignment2.Registry

/-!
When networkMonitor refuses a monitor it has forked itself. It forks one monitor for
each entry of `interface_names`, but gives a name to one connection at a time only, so
an interface entered twice leaves one of its monitors without a name.
-/

namespace Unx511.Assignment2

open Unx511.Machine

/-- Every monitor is one that networkMonitor has forked. -/
def OnlyForked (_ : State) (a : Action) : Prop := ∀ k, a ≠ .launch k

def Action.isLaunch : Action → Bool
  | .launch _ => true
  | _ => false

theorem onlyForked_iff {s : State} {a : Action} : OnlyForked s a ↔ a.isLaunch = false := by
  constructor
  · intro h
    cases a with
    | launch k => exact absurd rfl (h k)
    | _ => rfl
  · rintro h k rfl
    cases h

instance (s : State) (a : Action) : Decidable (OnlyForked s a) :=
  decidable_of_iff _ onlyForked_iff.symm

/-- What a step leaves as it is of a monitor that it neither forks nor refuses. -/
structure Monitor.Kept (m m' : Monitor) : Prop where
  refused : m'.refused = m.refused
  unborn : m.pc = .unborn → m'.pc = .unborn

namespace Monitor.Kept

variable {m m' : Monitor}

theorem refl (m : Monitor) : Kept m m := ⟨rfl, id⟩

theorem of_born (hrefused : m'.refused = m.refused) (hborn : m.pc ≠ .unborn) : Kept m m' :=
  ⟨hrefused, fun hpc => absurd hpc hborn⟩

theorem hangUp (m : Monitor) : Kept m m.hangUp := by
  unfold Monitor.hangUp
  split
  · exact refl m
  · exact ⟨rfl, id⟩

end Monitor.Kept

section Kept

open Monitor

variable {s t : State} {fd : Nat}

theorem kept_of_ne {j k : Nat} {m : Monitor} (hne : j ≠ k) :
    Kept (s.monitor j) (Function.update s.monitor k m j) := by
  rw [Function.update_of_ne hne]
  exact .refl _

/-- Only monitor `k` is changed. -/
theorem kept_of_update {k : Nat} {m : Monitor} (h : Kept (s.monitor k) m) (j : Nat) :
    Kept (s.monitor j) (Function.update s.monitor k m j) := by
  rcases eq_or_ne j k with rfl | hne
  · rwa [Function.update_self]
  · exact kept_of_ne hne

theorem closeFd_kept (s : State) (fd j : Nat) :
    Kept (s.monitor j) ((s.closeFd fd).monitor j) := by
  unfold State.closeFd
  split
  · apply kept_of_update
    exact .hangUp _
  · exact .refl _

theorem Sent.kept {message : String} {sources : List Nat} {next : ServerPc}
    (h : Sent s fd message sources next t) (j : Nat) : Kept (s.monitor j) (t.monitor j) := by
  cases h with
  | told _ _ =>
      apply kept_of_update
      exact ⟨rfl, id⟩
  | killed _ _ => exact .hangUp (s.monitor j)
  | closed _ => exact .refl _

theorem Handled.kept {source : Nat} {name message : String} {fds ready : List Nat}
    (h : Handled s fd source name fds ready message t) (j : Nat) :
    Kept (s.monitor j) (t.monitor j) := by
  cases h with
  | ready => exact (serverSend_sent s fd _ _ _).kept j
  | linkDown =>
      exact (serverSend_sent { s with server.alerts := s.server.alerts ++ [(source, name)] }
        fd _ _ _).kept j
  | done => exact closeFd_kept s fd j
  | monitoring | unknown _ => exact .refl _

theorem sigHandlerServer_kept (s : State) (j : Nat) :
    Kept (s.monitor j) ((sigHandlerServer s).monitor j) := by
  unfold sigHandlerServer
  split
  · change Kept (s.monitor j) (if j ∈ s.backlog then (s.monitor j).hangUp else s.monitor j)
    split
    · exact .hangUp _
    · exact .refl _
  · exact .refl _

/-- A monitor is kept, is the next one forked, or is refused. -/
inductive Treated (cfg : Config) (s t : State) (j : Nat) : Prop
  | kept (h : Kept (s.monitor j) (t.monitor j))
  | forked (hj : j < cfg.names.length) (h : (t.monitor j).refused = (s.monitor j).refused)
  | refused {rest : List Nat} (hclean : s.server.pc.inCleanup = false)
      (hbacklog : s.backlog = j :: rest) (hname : freeName cfg.names s.server.clientFds = none)

theorem Treated.of_update {cfg : Config} {k : Nat} {m : Monitor}
    (ht : t.monitor = Function.update s.monitor k m) (h : Kept (s.monitor k) m) (j : Nat) :
    Treated cfg s t j := by
  apply Treated.kept
  rw [ht]
  exact kept_of_update h j

theorem Registered.treated {cfg : Config} {a : Action} (h : Registered s)
    (heffect : Effect cfg s a t) (hown : OnlyForked s a) (j : Nat) : Treated cfg s t j := by
  cases heffect with
  | goto _ _ _ _ _ _ _ | selectFails _ | clear _ => exact .kept (.refl _)
  | @fork k _ hk _ =>
      rcases eq_or_ne j k with rfl | hne
      · refine .forked hk ?_
        change (Function.update s.monitor j _ j).refused = _
        rw [Function.update_self]
      · exact .kept (kept_of_ne hne)
  | acceptNamed _ _ _ _ =>
      apply Treated.of_update rfl
      exact ⟨rfl, id⟩
  | @acceptRefused fd k rest ready hpc hbacklog hname =>
      rcases eq_or_ne j k with rfl | hne
      · exact .refused (by rw [hpc]; rfl) hbacklog hname
      · exact .kept (kept_of_ne hne)
  | receive _ _ _ =>
      apply Treated.of_update rfl
      exact ⟨rfl, id⟩
  | @drop fd _ _ _ _ => exact .kept (closeFd_kept s fd j)
  | @handle fd source message fds ready hpc =>
      have hfd : fd ∈ s.server.clientFds.keys := h.visited fd (by rw [hpc]; rfl)
      obtain ⟨name, _, hhandled⟩ := handleMessage_handled source message fds ready hfd
      exact .kept (hhandled.kept j)
  | @tell fd fds _ => exact .kept ((serverSend_sent s fd _ _ _).kept j)
  | @closeClient fd _ _ => exact .kept (closeFd_kept s fd j)
  | exit _ => exact .kept (.hangUp _)
  | sigintServer _ => exact .kept (sigHandlerServer_kept s j)
  | @launch k _ _ => exact absurd rfl (hown k)
  | exitMonitor _ _ hborn =>
      apply Treated.of_update rfl
      exact .of_born rfl hborn
  | @localStep k operstate p hlocal =>
      apply Treated.of_update rfl
      refine .of_born rfl fun hpc => ?_
      rcases Process.localStep_cases hlocal with ⟨hstart, _⟩ | ⟨hloop, _⟩
      · cases hstart.symm.trans hpc
      · rw [show (s.monitor k).process.pc = .unborn from hpc] at hloop
        cases hloop
  | connect hpc _ =>
      apply Treated.of_update rfl
      refine .of_born rfl ?_
      rw [hpc]
      nofun
  | @send k message hout _ =>
      apply Treated.of_update rfl
      refine .of_born rfl fun hpc => ?_
      rw [hpc] at hout
      cases hout
  | recv _ hrecv | recvEnds _ _ hrecv | interrupted _ hrecv =>
      apply Treated.of_update rfl
      refine .of_born rfl fun hpc => ?_
      rcases Process.afterRecv_cases hrecv with ⟨hawait, _⟩ | ⟨hawait, _⟩
      · cases hawait.symm.trans hpc
      · cases hawait.symm.trans hpc
  | sigint hpc _ =>
      apply Treated.of_update rfl
      exact .of_born rfl hpc

end Kept

/-- What holds while only monitors of networkMonitor run: those it does not fork are
not born. -/
structure OwnMonitors (cfg : Config) (s : State) : Prop where
  registered : Registered s
  foreign : ∀ k, cfg.names.length ≤ k → (s.monitor k).pc = .unborn

namespace OwnMonitors

variable {cfg : Config} {s t : State} {a : Action} {k : Nat}

theorem initial (cfg : Config) (running : Bool) : OwnMonitors cfg (State.initial running) where
  registered := Registered.initial running
  foreign := fun _ _ => rfl

theorem effect (h : OwnMonitors cfg s) (heffect : Effect cfg s a t) (hown : OnlyForked s a) :
    OwnMonitors cfg t := by
  refine ⟨h.registered.effect heffect, fun k hk => ?_⟩
  have hunborn := h.foreign k hk
  cases h.registered.treated heffect hown k with
  | kept hkept => exact hkept.unborn hunborn
  | forked hlt _ => omega
  | refused _ hbacklog _ =>
      have hwaiting := h.registered.consistent.wired.waiting k (by rw [hbacklog]; simp)
      have hnone := h.registered.consistent.early k (by rw [hunborn]; rfl)
      cases hwaiting.symm.trans hnone

/-- Only a monitor that networkMonitor forks has a connection. -/
theorem lt_of_link (h : OwnMonitors cfg s) (hlink : s.links k ≠ .none) :
    k < cfg.names.length := by
  by_contra hle
  apply hlink
  apply h.registered.consistent.early
  rw [h.foreign k (Nat.le_of_not_lt hle)]
  rfl

/-- While a connection waits, fewer are registered than monitors were forked. -/
theorem keys_length_lt {rest : List Nat} (h : OwnMonitors cfg s)
    (hclean : s.server.pc.inCleanup = false) (hbacklog : s.backlog = k :: rest) :
    s.server.clientFds.keys.length < cfg.names.length := by
  have hwired := h.registered.consistent.wired
  have hwaiting : s.links k = .waiting := hwired.waiting k (by rw [hbacklog]; simp)
  have hconnected := h.registered.connected hclean
  have hnodup : (s.server.clientFds.keys.map s.server.peer).Nodup := by
    apply List.Nodup.map_on _ s.server.clientFds.keys_nodup
    intro fd hfd fd' _ heq
    obtain ⟨j, hj⟩ := hconnected fd hfd
    exact hwired.injective fd fd' j hj (heq ▸ hj)
  have hnew : some k ∉ s.server.clientFds.keys.map s.server.peer := by
    intro hmem
    obtain ⟨fd, _, hfd⟩ := List.mem_map.mp hmem
    apply hwired.not_mem_of_peer hfd
    rw [hbacklog]
    exact List.mem_cons_self
  have hforked : some k :: s.server.clientFds.keys.map s.server.peer ⊆
      (List.range cfg.names.length).map some := by
    intro peer hpeer
    rcases List.mem_cons.mp hpeer with rfl | hmem
    · apply List.mem_map_of_mem
      apply List.mem_range.mpr
      exact h.lt_of_link (by rw [hwaiting]; nofun)
    · obtain ⟨fd, hfd, rfl⟩ := List.mem_map.mp hmem
      obtain ⟨j, hj⟩ := hconnected fd hfd
      rw [hj]
      apply List.mem_map_of_mem
      apply List.mem_range.mpr
      exact h.lt_of_link (by rw [hwired.accepted fd j hj]; nofun)
  have hcount := (List.nodup_cons.mpr ⟨hnew, hnodup⟩).length_le_of_subset hforked
  simp only [List.length_cons, List.length_map, List.length_range] at hcount
  omega

/-- With pairwise different names one of them is free. -/
theorem freeName_ne_none {rest : List Nat} (h : OwnMonitors cfg s) (hnames : cfg.names.Nodup)
    (hclean : s.server.pc.inCleanup = false) (hbacklog : s.backlog = k :: rest) :
    freeName cfg.names s.server.clientFds ≠ none := by
  intro hnone
  have hused : cfg.names ⊆ s.server.clientFds.values := by
    intro name hname
    simpa using List.find?_eq_none.mp hnone name hname
  have hle := hnames.length_le_of_subset hused
  have hvalues : s.server.clientFds.values.length = s.server.clientFds.keys.length := by
    unfold OrderedMap.values OrderedMap.keys
    rw [List.length_map, List.length_map]
  have hlt := h.keys_length_lt hclean hbacklog
  omega

end OwnMonitors

/-- No monitor has been refused. -/
def State.Unrefused (s : State) : Prop := ∀ k, (s.monitor k).refused = false

theorem Effect.unrefused {cfg : Config} {s t : State} {a : Action} (heffect : Effect cfg s a t)
    (h : OwnMonitors cfg s) (hown : OnlyForked s a) (hnames : cfg.names.Nodup)
    (hs : s.Unrefused) : t.Unrefused := by
  intro k
  cases h.registered.treated heffect hown k with
  | kept hkept => rw [hkept.refused, hs k]
  | forked _ hrefused => rw [hrefused, hs k]
  | refused hclean hbacklog hname =>
      exact absurd hname (h.freeName_ne_none hnames hclean hbacklog)

theorem unrefused_of_nodup {cfg : Config} {running : Bool} {s : State} (hnames : cfg.names.Nodup)
    (h : Reaches (step cfg) OnlyForked (State.initial running) s) : s.Unrefused := by
  have hinv : OwnMonitors cfg s ∧ s.Unrefused := by
    refine h.invariant (I := fun s => OwnMonitors cfg s ∧ s.Unrefused) ?_ ?_
    · exact ⟨OwnMonitors.initial cfg running, fun _ => rfl⟩
    · intro u a v hu hown hstep
      have heffect := step_effect hstep
      exact ⟨hu.1.effect heffect hown, heffect.unrefused hu.1 hown hnames hu.2⟩
  exact hinv.2

section Filling

variable {cfg : Config} {s t u : State} {a : Action} {j k : Nat}

theorem reaches_head (hstep : step cfg s a = some t) (hown : a.isLaunch = false)
    (h : Reaches (step cfg) OnlyForked t u) : Reaches (step cfg) OnlyForked s u :=
  h.head (onlyForked_iff.mpr hown) hstep

/-- A turn of the loop up to the `accept` of a waiting connection. -/
theorem reaches_accept {rest : List Nat} (hpc : s.server.pc = .test)
    (hrunning : s.server.running = true) (hopen : s.server.masterOpen = true)
    (hbacklog : s.backlog = k :: rest) :
    Reaches (step cfg) OnlyForked s (s.goto (.accept [])) := by
  have htest : step cfg s .server = some (s.goto .fill) := by
    simp [step, serverAction, serverStep, hpc, hrunning]
  have hfill : step cfg (s.goto .fill) .server =
      some (s.goto (.select true s.server.clientFds.keys)) := by
    simp [step, serverAction, serverStep, State.goto, hopen]
  have hselect : step cfg (s.goto (.select true s.server.clientFds.keys))
      (.selectReturns true []) = some (s.goto (.checkMaster true [])) := by
    simp [step, serverAction, selectReturns, State.goto, hopen, hbacklog]
  have hcheck : step cfg (s.goto (.checkMaster true [])) (.checkMaster true) =
      some (s.goto (.accept [])) := by
    simp [step, serverAction, checkMaster, State.goto]
  apply reaches_head htest rfl
  apply reaches_head hfill rfl
  apply reaches_head hselect rfl
  apply reaches_head hcheck rfl
  exact .refl _

/-- With nothing to read the clients are passed over. -/
theorem reaches_test (fds : List Nat) :
    Reaches (step cfg) OnlyForked (s.goto (.check fds [])) (s.goto .test) := by
  induction fds with
  | nil =>
      have hlast : step cfg (s.goto (.check [] [])) .server = some (s.goto .test) := rfl
      exact reaches_head hlast rfl (.refl _)
  | cons fd rest ih =>
      have hnext : step cfg (s.goto (.check (fd :: rest) [])) .server =
          some (s.goto (.check rest [])) := by
        simp [step, serverAction, serverStep, State.goto]
      exact reaches_head hnext rfl ih

/-- Monitor `k` connects. -/
theorem reaches_waiting (cfg : Config) (hpc : (s.monitor k).pc = .start)
    (hopen : s.server.masterOpen = true) (hbacklog : s.backlog = []) :
    ∃ t, Reaches (step cfg) OnlyForked s t ∧ t.server = s.server ∧ t.backlog = [k] ∧
      ∀ i, i ≠ k → t.monitor i = s.monitor i := by
  let u := s.setMonitor k { s.monitor k with
    process := (s.monitor k).process.goto .connect
    linkUps := (s.monitor k).linkUps + if (s.monitor k).pc = .setLinkUp then 1 else 0 }
  have hlocal : step cfg s (.monitor k "up") = some u := by
    have hprocess : (s.monitor k).process.pc = .start := hpc
    simp [step, serverAction, monitorAction, localMonitor, Process.localStep, hprocess, u]
  have hself : (u.monitor k).pc = .connect := by simp [u, State.setMonitor, Monitor.pc]
  have hconnect : step cfg u (.connect k) = some { u.setMonitor k { u.monitor k with
      process := (u.monitor k).process.goto .sendReady
      link := .waiting } with
    backlog := [k] } := by
    have huopen : u.server.masterOpen = true := hopen
    have hubacklog : u.backlog = [] := hbacklog
    simp [step, serverAction, monitorAction, connect, hself, huopen, hubacklog]
  refine ⟨_, reaches_head hlocal rfl (reaches_head hconnect rfl (.refl _)), rfl, rfl, ?_⟩
  intro i hi
  change Function.update (Function.update s.monitor k _) k _ i = s.monitor i
  rw [Function.update_of_ne hi, Function.update_of_ne hi]

/-- After the fork loop, or its first `k` rounds. -/
structure Forked (cfg : Config) (k : Nat) (s : State) : Prop where
  server : s.server = { (State.initial true).server with pc := .fork k }
  backlog : s.backlog = []
  started : ∀ i, i < k → (s.monitor i).pc = .start
  unborn : ∀ i, k ≤ i → (s.monitor i).pc = .unborn

theorem Forked.next (h : Forked cfg k s) (hk : k < cfg.names.length) :
    ∃ t, step cfg s .fork = some t ∧ Forked cfg (k + 1) t := by
  have hpc : s.server.pc = .fork k := by rw [h.server]
  have hfork : step cfg s .fork = some ((startMonitor k s).goto (.fork (k + 1))) := by
    simp [step, serverAction, fork, hpc, hk, h.unborn k le_rfl]
  refine ⟨_, hfork, ?_, h.backlog, fun i hi => ?_, fun i hi => ?_⟩
  · change { s.server with pc := .fork (k + 1) } = _
    rw [h.server]
  · rcases eq_or_ne i k with rfl | hne
    · simp [startMonitor, State.goto, State.setMonitor, Monitor.pc]
    · have hold := h.started i (by omega)
      simpa [startMonitor, State.goto, State.setMonitor, hne] using hold
  · have hne : i ≠ k := by omega
    have hold := h.unborn i (by omega)
    simpa [startMonitor, State.goto, State.setMonitor, hne] using hold

theorem reaches_forked (cfg : Config) (hk : k ≤ cfg.names.length) :
    ∃ s, Reaches (step cfg) OnlyForked (State.initial true) s ∧ Forked cfg k s := by
  induction k with
  | zero => exact ⟨_, .refl _, rfl, rfl, nofun, fun _ _ => rfl⟩
  | succ k ih =>
      obtain ⟨s, hreach, hforked⟩ := ih (by omega)
      obtain ⟨t, hstep, hnext⟩ := hforked.next (by omega)
      exact ⟨t, hreach.tail ⟨.fork, onlyForked_iff.mpr rfl, hstep⟩, hnext⟩

/-- networkMonitor is at the top of its loop and has given `j` names, the monitors
from `j` on have not connected yet. -/
structure Serving (cfg : Config) (j : Nat) (s : State) : Prop where
  pc : s.server.pc = .test
  running : s.server.running = true
  masterOpen : s.server.masterOpen = true
  backlog : s.backlog = []
  distinct : s.server.clientFds.values.Nodup
  listed : s.server.clientFds.values ⊆ cfg.names
  given : s.server.clientFds.values.length = j
  free : ∀ fd, j ≤ fd → s.server.peer fd = none ∧ fd ∉ s.server.clientFds.keys
  waits : ∀ i, j ≤ i → i < cfg.names.length → (s.monitor i).pc = .start

theorem Forked.serving (h : Forked cfg cfg.names.length s) : Serving cfg 0 (s.goto .test) := by
  obtain ⟨hserver, hbacklog, hstarted, _⟩ := h
  refine ⟨rfl, ?_, ?_, hbacklog, ?_, ?_, ?_, ?_, fun i _ => hstarted i⟩ <;>
    simp only [State.goto, hserver]
  · rfl
  · rfl
  · exact List.nodup_nil
  · exact List.nil_subset _
  · rfl
  · exact fun fd _ => ⟨rfl, List.not_mem_nil⟩

theorem freeName_some {names : List String} {clientFds : OrderedMap Nat String} {name : String}
    (h : freeName names clientFds = some name) : name ∈ names ∧ name ∉ clientFds.values := by
  have hfree := List.find?_some h
  exact ⟨List.mem_of_find?_eq_some h, by simpa using hfree⟩

/-- The connection of monitor `j` is accepted on descriptor `j`. -/
theorem reaches_named (cfg : Config) {name : String} (hpc : s.server.pc = .accept [])
    (hopen : s.server.masterOpen = true) (hpeer : s.server.peer j = none)
    (hbacklog : s.backlog = [j]) (hname : freeName cfg.names s.server.clientFds = some name) :
    ∃ t, Reaches (step cfg) OnlyForked s t ∧
      t.server = { s.server with
        pc := .test
        clientFds := s.server.clientFds.set j name
        peer := Function.update s.server.peer j (some j) } ∧
      t.backlog = [] ∧ ∀ i, i ≠ j → t.monitor i = s.monitor i := by
  let u : State := {
    server := { s.server with
      pc := .snapshot []
      clientFds := s.server.clientFds.set j name
      peer := Function.update s.server.peer j (some j) }
    backlog := []
    monitor := Function.update s.monitor j { s.monitor j with link := .accepted } }
  have haccept : step cfg s (.accept j) = some u := by
    simp [step, serverAction, accept, hpc, hopen, hpeer, hbacklog, hname, u]
  have hsnapshot : step cfg u .server = some (u.goto (.check u.server.clientFds.keys [])) := rfl
  refine ⟨u.goto .test, ?_, rfl, rfl, fun i hi => Function.update_of_ne hi _ _⟩
  exact reaches_head haccept rfl (reaches_head hsnapshot rfl (reaches_test _))

/-- Without a free name it is refused. -/
theorem reaches_refused (cfg : Config) (hpc : s.server.pc = .accept [])
    (hopen : s.server.masterOpen = true)
    (hpeer : s.server.peer j = none) (hbacklog : s.backlog = [j])
    (hname : freeName cfg.names s.server.clientFds = none) :
    ∃ t, Reaches (step cfg) OnlyForked s t ∧ ¬ t.Unrefused := by
  have haccept : step cfg s (.accept j) = some {
      server := { s.server with pc := .snapshot [] }
      backlog := []
      monitor := Function.update s.monitor j
        { s.monitor j with link := .closed, refused := true } } := by
    simp [step, serverAction, accept, hpc, hopen, hpeer, hbacklog, hname]
  refine ⟨_, reaches_head haccept rfl (.refl _), fun hnone => ?_⟩
  have hj := hnone j
  simp at hj

theorem Serving.named {name : String} (h : Serving cfg j s)
    (hname : freeName cfg.names s.server.clientFds = some name)
    (hserver : t.server = { s.server with
      pc := .test
      clientFds := s.server.clientFds.set j name
      peer := Function.update s.server.peer j (some j) })
    (hbacklog : t.backlog = []) (hothers : ∀ i, i ≠ j → t.monitor i = s.monitor i) :
    Serving cfg (j + 1) t := by
  obtain ⟨hlisted, hunused⟩ := freeName_some hname
  have hfd : j ∉ s.server.clientFds.keys := (h.free j le_rfl).2
  have hvalues : (s.server.clientFds.set j name).values.Perm
      (name :: s.server.clientFds.values) := (OrderedMap.perm_set hfd name).map Prod.snd
  refine ⟨?_, ?_, ?_, hbacklog, ?_, ?_, ?_, fun fd hle => ?_, fun i hle hi => ?_⟩
  · rw [hserver]
  · rw [hserver, h.running]
  · rw [hserver, h.masterOpen]
  · rw [hserver]
    exact OrderedMap.values_set_nodup hfd hunused h.distinct
  · rw [hserver]
    intro value hvalue
    rcases List.mem_cons.mp (hvalues.mem_iff.mp hvalue) with rfl | hold
    · exact hlisted
    · exact h.listed hold
  · rw [hserver, hvalues.length_eq, List.length_cons, h.given]
  · obtain ⟨hpeer, hkeys⟩ := h.free fd (by omega)
    have hne : fd ≠ j := by omega
    rw [hserver, OrderedMap.mem_keys_set]
    refine ⟨?_, fun hmem => ?_⟩
    · rw [← hpeer]
      exact Function.update_of_ne hne _ _
    · rcases hmem with heq | hold
      · exact hne heq
      · exact hkeys hold
  · rw [hothers i (by omega)]
    exact h.waits i (by omega) hi

/-- The next monitor connects: it is given a name, or refused. -/
theorem Serving.next (h : Serving cfg j s) (hj : j < cfg.names.length) :
    ∃ t, Reaches (step cfg) OnlyForked s t ∧ (Serving cfg (j + 1) t ∨ ¬ t.Unrefused) := by
  obtain ⟨t, hwaiting, hserver, hbacklog, hothers⟩ :=
    reaches_waiting cfg (h.waits j le_rfl hj) h.masterOpen h.backlog
  have haccept : Reaches (step cfg) OnlyForked t (t.goto (.accept [])) :=
    reaches_accept (by rw [hserver, h.pc]) (by rw [hserver, h.running])
      (by rw [hserver, h.masterOpen]) hbacklog
  have hopen : (t.goto (.accept [])).server.masterOpen = true := by
    rw [← h.masterOpen, ← hserver]
    rfl
  have hpeer : (t.goto (.accept [])).server.peer j = none := by
    rw [← (h.free j le_rfl).1, ← hserver]
    rfl
  have hclients : (t.goto (.accept [])).server.clientFds = s.server.clientFds := by
    rw [← hserver]
    rfl
  cases hname : freeName cfg.names s.server.clientFds with
  | none =>
      obtain ⟨u, hrefused, hu⟩ :=
        reaches_refused cfg rfl hopen hpeer hbacklog (hclients ▸ hname)
      exact ⟨u, (hwaiting.trans haccept).trans hrefused, .inr hu⟩
  | some name =>
      obtain ⟨u, hnamed, huserver, hubacklog, huothers⟩ :=
        reaches_named cfg rfl hopen hpeer hbacklog (hclients ▸ hname)
      refine ⟨u, (hwaiting.trans haccept).trans hnamed, .inl (h.named hname ?_ hubacklog ?_)⟩
      · simp [huserver, State.goto, hserver]
      · intro i hi
        exact (huothers i hi).trans (hothers i hi)

theorem reaches_serving (hnone : ∀ s, Reaches (step cfg) OnlyForked (State.initial true) s →
    s.Unrefused) (hj : j ≤ cfg.names.length) :
    ∃ s, Reaches (step cfg) OnlyForked (State.initial true) s ∧ Serving cfg j s := by
  induction j with
  | zero =>
      obtain ⟨s, hreach, hforked⟩ := reaches_forked cfg le_rfl
      have hpc : s.server.pc = .fork cfg.names.length := by rw [hforked.server]
      have hloop : step cfg s .server = some (s.goto .test) := by
        simp [step, serverAction, serverStep, hpc]
      exact ⟨s.goto .test, hreach.tail ⟨.server, onlyForked_iff.mpr rfl, hloop⟩, hforked.serving⟩
  | succ j ih =>
      obtain ⟨s, hreach, hserving⟩ := ih (by omega)
      obtain ⟨t, hmore, hnext | hrefused⟩ := hserving.next (by omega)
      · exact ⟨t, hreach.trans hmore, hnext⟩
      · exact absurd (hnone t (hreach.trans hmore)) hrefused

/-- As many different names as monitors have been given. -/
theorem nodup_of_unrefused (hnone : ∀ s,
    Reaches (step cfg) OnlyForked (State.initial true) s → s.Unrefused) : cfg.names.Nodup := by
  obtain ⟨s, _, hserving⟩ := reaches_serving hnone le_rfl
  have hsub := List.subperm_of_subset hserving.distinct hserving.listed
  have hperm := hsub.perm_of_length_le hserving.given.ge
  exact hperm.nodup_iff.mp hserving.distinct

end Filling

/-- For every list of names: no forked monitor is refused in any run exactly when the
names are pairwise different. -/
theorem unrefused_iff (cfg : Config) :
    (∀ running s, Reaches (step cfg) OnlyForked (State.initial running) s →
      ∀ k, (s.monitor k).refused = false) ↔ cfg.names.Nodup := by
  constructor
  · intro hnone
    exact nodup_of_unrefused (hnone true)
  · intro hnames running s hreach
    exact unrefused_of_nodup hnames hreach

/-- The same interface entered twice. -/
def sameName : Config where
  names := ["eth0", "eth0"]
  restarts := true

/-- The two monitors connect one after the other. -/
def secondRefused : List Action :=
  [.fork, .fork, .server] ++
  connecting 0 ++ acceptAs 4 0 ++ connecting 1 ++
  [.server, .server, .selectReturns true [], .checkMaster true, .accept 5]

theorem sameName_refused :
    ∃ s, Reaches (step sameName) OnlyForked (State.initial true) s ∧
      run (step sameName) (State.initial true) secondRefused = some s ∧
      (s.monitor 1).refused = true ∧ (s.monitor 1).link = .closed :=
  ⟨_, Reaches.of_run secondRefused rfl (by decide), rfl, rfl, rfl⟩

end Unx511.Assignment2
