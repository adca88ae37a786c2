import Unx511.Lab10.Exclusion

/-!
Lab 10 over several runs. Each of the three programs can be killed at any point,
and a new run begins when no process of the last one is left. What it finds are the
names that `cleanup_clients` of client 3 has not removed, with the values that the
semaphores had when the last process ended: `sem_open` with O_CREAT takes an existing
semaphore as it is.
-/

namespace Unx511.Lab10

open Unx511.Machine Unx511.Posix

/-- What is left of a semaphore when no process has it open. One without a name is
gone, and the next one of that name starts at `value`. -/
def leftBehind (value : Nat) (sem : Semaphore) : Semaphore :=
  if sem.linked then sem else { linked := false, value := value }

/-- The start of a new run. -/
def State.restart (s : State) : State where
  mutexSem := leftBehind 1 s.mutexSem
  startSem := leftBehind 0 s.startSem
  keyed := s.keyed
  memory := s.memory
  client := fun _ => Client.initial
  startPosts := 0
  trace := []

/-- A process that is killed cleans nothing up. -/
inductive HistoryAction where
  | act (a : Action)
  | kill (no : ClientNo)
  | restart
  deriving DecidableEq, Repr

def historyStep (bound : Nat) (s : State) : HistoryAction → Option State
  | .act a => step bound s a
  | .kill no => if s.pcs no = .exited then none else some (s.goto no .exited)
  | .restart => if ∀ no, s.pcs no = .exited then some s.restart else none

/-- The first message is in the shared memory. -/
def State.initialised (s : State) : Bool :=
  s.trace.any fun e =>
    match e with
    | .wrote .three _ => true
    | _ => false

theorem initialised_of_trace {s t : State} (h : t.trace = s.trace) :
    t.initialised = s.initialised := by
  unfold State.initialised
  rw [h]

theorem initialised_append {s t : State} {e : Event} (htrace : t.trace = s.trace ++ [e])
    (h : s.initialised = true) : t.initialised = true := by
  unfold State.initialised at *
  rw [htrace, List.any_append, h, Bool.true_or]

theorem initialised_of_wrote {s t : State} {m : Memory}
    (htrace : t.trace = s.trace ++ [.wrote .three m]) : t.initialised = true := by
  unfold State.initialised
  rw [htrace, List.any_append]
  exact Bool.or_true _

namespace Pc

/-- Client 3 has both semaphores and has not posted `start_sem` yet. -/
def ready : Pc → Bool
  | .shmget | .shmat | .postStart => true
  | pc => pc.initialises

/-- Past the first test of the loop, or past the first post. -/
def exchanging : Pc → Bool
  | .postStartAgain | .test (_ + 1) | .lock _ | .sleep _ => true
  | pc => pc.inCritical

/-- On the way from `sem_wait(start_sem)`, or from the posts, to the loop. -/
def approaching (no : ClientNo) : Pc → Bool
  | .shmget | .shmat => no ≠ .three
  | .test 0 => true
  | _ => false

theorem beforePosts_of_ready {pc : Pc} (h : pc.ready = true) : pc.beforePosts = true := by
  cases pc <;> first | rfl | cases h

end Pc

/-- In every run of the history, client 3 begins with the mutex free and no start
signal given, and clients 1 and 2 start when the memory is initialised. -/
structure RestartLaw (s : State) : Prop where
  begins : (s.pcs .three).ready = true → s.mutexSem.value = 1 ∧ s.startSem.value = 0
  barrier : ∀ no, no ≠ .three → (s.pcs no).started = true → s.initialised = true

/-- A run starts without semaphores left over, or with unused ones; and SIGINT ends no
wait for the start signal before the memory is initialised. A run that starts while a
process of an earlier one is left is no step of `historyStep`. -/
def CleanStart (s : State) : HistoryAction → Prop
  | .restart =>
      (s.mutexSem.linked = true → s.mutexSem.value = 1) ∧
        (s.startSem.linked = true → s.startSem.value = 0)
  | .act (.interrupt no) => s.pcs no = .waitStart → s.initialised = true
  | _ => True

instance (s : State) (a : HistoryAction) : Decidable (CleanStart s a) := by
  unfold CleanStart
  split <;> infer_instance

section Moves

variable {no : ClientNo} {memory memory' : Memory} {pc pc' : Pc}

theorem Moves.approaching (h : Moves no memory pc pc') (hpc : pc'.approaching no = true) :
    pc.approaching no = true := by
  cases h with
  | signalled | found => exact hpc
  | attached hno => exact decide_eq_true hno
  | _ => cases hpc

theorem Moves.exchanging (h : Moves no memory pc pc') (hpc : pc'.exchanging = true) :
    pc.exchanging = true ∨ pc = .test 0 ∧ pc' = .lock 0 := by
  cases h with
  | iterate i =>
      cases i with
      | zero => exact .inr ⟨rfl, rfl⟩
      | succ i => exact .inl rfl
  | signalled => exact .inl hpc
  | slept _ | mine _ _ | notMine _ _ | readSrc _ => exact .inl rfl
  | _ => cases hpc

theorem Moves.postStart (h : Moves no memory pc .postStart) : pc = .postStart := by
  cases h
  rfl

theorem Stores.exchanging (h : Stores no memory pc pc' memory') :
    pc'.exchanging = pc.exchanging ∧ pc'.approaching no = false ∧ pc' ≠ .postStart := by
  cases h <;> exact ⟨rfl, rfl, by simp⟩

end Moves

def Action.client : Action → ClientNo
  | .run no | .fails no | .sigint no | .interrupt no => no

/-- The step changes the record of client `no` only. `is_running` is never set again,
and the client enters its loop only while it is set. -/
structure Runs (s t : State) (no : ClientNo) : Prop where
  others : ∀ k, k ≠ no → t.client k = s.client k
  running : (t.client no).isRunning = true → (s.client no).isRunning = true
  enters : ∀ i j, s.pcs no = .test i → t.pcs no = .lock j → (s.client no).isRunning = true

theorem Runs.of_update {s t : State} {no : ClientNo} {c : Client} {pc : Pc}
    (hpc : s.pcs no = pc) (htest : ∀ i, pc ≠ .test i)
    (hclient : t.client = Function.update s.client no c)
    (hrunning : c.isRunning = true → (s.client no).isRunning = true) : Runs s t no where
  others := fun k hk => by rw [hclient, Function.update_of_ne hk]
  running := by rwa [hclient, Function.update_self]
  enters := fun i _ hi _ => absurd (hpc.symm.trans hi) (htest i)

theorem goto_pcs (s : State) (no : ClientNo) (pc : Pc) :
    (s.goto no pc).pcs = Function.update s.pcs no pc :=
  pcs_of_client (c := { s.client no with pc := pc }) rfl

theorem pcs_of_client_at {s t : State} {no : ClientNo} {c : Client} {pc : Pc} (hc : c.pc = pc)
    (h : t.client = Function.update s.client no c) : t.pcs = Function.update s.pcs no pc := by
  rw [← hc]
  exact pcs_of_client h

theorem setClient_client (s : State) (no : ClientNo) (c : Client) :
    (s.setClient no c).client no = c := by
  simp [State.setClient]

theorem setClient_client_of_ne (s : State) {no k : ClientNo} (c : Client) (hk : k ≠ no) :
    (s.setClient no c).client k = s.client k :=
  Function.update_of_ne hk _ _

theorem setupStep_runs {s t : State} {no : ClientNo} {pc : Pc} (hpc : s.pcs no = pc)
    (h : setupStep no s pc = some t) : Runs s t no := by
  cases pc with
  | openMutex retries | openStart retries =>
      cases retries with
      | zero =>
          cases h
          exact .of_update hpc (by simp) rfl id
      | succ retries =>
          simp only [setupStep] at h
          split at h
          · cases h
            exact .of_update hpc (by simp) rfl id
          · cases h
            exact .of_update hpc (by simp) rfl id
  | waitStart =>
      obtain ⟨sem, _, rfl⟩ := Option.map_eq_some_iff.mp h
      exact .of_update hpc (by simp) rfl id
  | shmget =>
      simp only [setupStep] at h
      split at h
      · cases h
        exact .of_update hpc (by simp) rfl id
      · cases h
        exact .of_update hpc (by simp) rfl id
  | sigaction | createMutex | createStart | shmat | initSrc | initDest | initClear | initText
  | postStart | postStartAgain =>
      cases h
      exact .of_update hpc (by simp) rfl id
  | _ => cases h

theorem loopStep_runs {bound : Nat} {s t : State} {no : ClientNo} {pc : Pc} (hpc : s.pcs no = pc)
    (h : loopStep bound no s pc = some t) : Runs s t no := by
  cases pc with
  | test i =>
      obtain rfl := Option.some.inj h
      refine ⟨fun k => setClient_client_of_ne s _, ?_, fun _ j _ hj => ?_⟩
      · rw [State.goto, setClient_client]
        exact id
      · rw [goto_pcs, Function.update_self] at hj
        split at hj
        · rename_i hrun
          exact hrun.2
        · cases hj
  | lock i =>
      obtain ⟨sem, _, rfl⟩ := Option.map_eq_some_iff.mp h
      exact .of_update hpc (by simp) rfl id
  | inspect _ | readSrc _ | readText _ _ | writeSrc _ | writeDest _ | clearText _ | writeText _
  | unlock _ | sleep _ =>
      cases h
      exact .of_update hpc (by simp) rfl id
  | _ => cases h

theorem cleanupStep_runs {s t : State} {no : ClientNo} {pc : Pc} (hpc : s.pcs no = pc)
    (h : cleanupStep no s pc = some t) : Runs s t no := by
  cases pc with
  | detach =>
      simp only [cleanupStep] at h
      split at h
      · cases h
        exact .of_update hpc (by simp) rfl id
      · cases h
        exact .of_update hpc (by simp) rfl id
  | unlinkMutex | unlinkStart =>
      cases h
      exact .of_update hpc (by simp) rfl id
  | _ => cases h

theorem step_runs {bound : Nat} {s t : State} {a : Action} (h : step bound s a = some t) :
    Runs s t a.client := by
  cases a with
  | run no =>
      rcases Option.or_eq_some_iff.mp h with hsetup | ⟨_, hrest⟩
      · exact setupStep_runs rfl hsetup
      · rcases Option.or_eq_some_iff.mp hrest with hloop | ⟨_, hcleanup⟩
        · exact loopStep_runs rfl hloop
        · exact cleanupStep_runs rfl hcleanup
  | fails no =>
      obtain ⟨pc, hfail, rfl⟩ := Option.map_eq_some_iff.mp h
      change Runs s _ no
      refine .of_update (c := { s.client no with pc := pc }) rfl ?_ rfl id
      intro i hi
      rw [hi] at hfail
      cases hfail
  | sigint no =>
      change Runs s t no
      simp only [step] at h
      split at h
      · cases h
      · rename_i hpc
        cases h
        exact .of_update hpc (by simp) rfl id
      · cases h
        refine ⟨fun k => setClient_client_of_ne s _, ?_, fun i j hi hj => ?_⟩
        · rw [setClient_client]
          exact fun hfalse => absurd hfalse Bool.false_ne_true
        · have hpcs := pcs_of_client (s := s) (t := s.setClient no (handler (s.client no))) rfl
          rw [hpcs, Function.update_self] at hj
          cases hi.symm.trans hj
  | interrupt no =>
      obtain ⟨pc, hwait, rfl⟩ := Option.map_eq_some_iff.mp h
      change Runs s _ no
      refine .of_update (c := { handler (s.client no) with pc := pc }) rfl ?_ rfl
        fun hfalse => absurd hfalse Bool.false_ne_true
      intro i hi
      rw [hi] at hwait
      cases hwait

theorem interrupt_not_running {bound : Nat} {s t : State} {no : ClientNo}
    (h : step bound s (.interrupt no) = some t) : (t.client no).isRunning = false := by
  obtain ⟨pc, _, rfl⟩ := Option.map_eq_some_iff.mp h
  rw [setClient_client]
  rfl

theorem Runs.running_all {s t : State} {no : ClientNo} (h : Runs s t no) (k : ClientNo)
    (hk : (t.client k).isRunning = true) : (s.client k).isRunning = true := by
  rcases eq_or_ne k no with rfl | hne
  · exact h.running hk
  · rwa [h.others k hne] at hk

theorem Runs.enters_all {s t : State} {no : ClientNo} (h : Runs s t no) {k : ClientNo} {i j : Nat}
    (hi : s.pcs k = .test i) (hj : t.pcs k = .lock j) : (s.client k).isRunning = true := by
  rcases eq_or_ne k no with rfl | hne
  · exact h.enters i j hi hj
  · have hsame : t.pcs k = s.pcs k := congrArg Client.pc (h.others k hne)
    cases (hj.symm.trans hsame).trans hi

/-- What holds within a run that started clean. -/
structure RunInvariant (s : State) : Prop where
  setting : Setting s
  free : s.startPosts = 0 → s.mutexSem.value = 1
  written : 0 < s.startPosts ∨ s.pcs .three = .postStart → s.initialised = true
  exchange : ∀ no, (s.pcs no).exchanging = true → 0 < s.startPosts
  /-- A client that SIGINT has let pass does not reach the exchange. -/
  approach : ∀ no, (s.pcs no).approaching no = true → (s.client no).isRunning = true →
    0 < s.startPosts
  barrier : ∀ no, no ≠ .three → (s.pcs no).started = true → s.initialised = true

namespace RunInvariant

theorem initial (mutexLinked startLinked keyed : Bool) (memory : Memory) :
    RunInvariant (State.initial mutexLinked startLinked keyed memory) where
  setting := Setting.initial mutexLinked startLinked keyed memory
  free := fun _ => rfl
  written := by
    rintro (h | h)
    · exact absurd h (Nat.lt_irrefl 0)
    · cases h
  exchange := fun _ h => by cases h
  approach := fun _ h => by cases h
  barrier := fun _ _ h => by cases h

theorem restartLaw {s : State} (h : RunInvariant s) : RestartLaw s where
  begins := by
    intro hready
    have hzero := h.setting.early .three rfl (Pc.beforePosts_of_ready hready)
    have hstart : s.startSem.value = 0 := by
      by_contra hne
      have hposted := h.setting.posted (Nat.pos_of_ne_zero hne)
      omega
    exact ⟨h.free hzero, hstart⟩
  barrier := h.barrier

variable {s t : State} {a : Action} {no : ClientNo} {pc : Pc}

/-- A step of client `no` to `pc` that does not post `start_sem`. -/
theorem of_update (h : RunInvariant s) (hset : Setting t)
    (hpcs : t.pcs = Function.update s.pcs no pc)
    (hrunning : ∀ k, (t.client k).isRunning = true → (s.client k).isRunning = true)
    (hposts : t.startPosts = s.startPosts)
    (hfree : s.startPosts = 0 → t.mutexSem.value = 1)
    (hinit : s.initialised = true → t.initialised = true)
    (hwritten : no = .three → pc = .postStart → t.initialised = true)
    (hexchange : pc.exchanging = true → 0 < s.startPosts)
    (happroach : pc.approaching no = true → (t.client no).isRunning = true → 0 < s.startPosts)
    (hbarrier : no ≠ .three → pc.started = true → t.initialised = true) : RunInvariant t := by
  have hself : t.pcs no = pc := by rw [hpcs, Function.update_self]
  have hother : ∀ k, k ≠ no → t.pcs k = s.pcs k := fun k hk => by
    rw [hpcs, Function.update_of_ne hk]
  refine ⟨hset, by rwa [hposts], ?_, fun k hk => ?_, fun k hk hrun => ?_, fun k hk3 hk => ?_⟩
  · rintro (hpos | hthree)
    · exact hinit (h.written (.inl (hposts ▸ hpos)))
    · rcases eq_or_ne ClientNo.three no with hno | hno
      · exact hwritten hno.symm (by rw [← hself, ← hno, hthree])
      · exact hinit (h.written (.inr (hother _ hno ▸ hthree)))
  · rw [hposts]
    rcases eq_or_ne k no with rfl | hne
    · exact hexchange (hself ▸ hk)
    · exact h.exchange k (hother k hne ▸ hk)
  · rw [hposts]
    rcases eq_or_ne k no with rfl | hne
    · exact happroach (hself ▸ hk) hrun
    · exact h.approach k (hother k hne ▸ hk) (hrunning k hrun)
  · rcases eq_or_ne k no with rfl | hne
    · exact hbarrier hk3 (hself ▸ hk)
    · exact hinit (h.barrier k hk3 (hother k hne ▸ hk))

theorem startPosts_ne_zero (h : RunInvariant s) (hpc : s.pcs no = pc)
    (hexchange : pc.exchanging = true) : s.startPosts ≠ 0 := by
  have hpos := h.exchange no (hpc ▸ hexchange)
  omega

theorem of_moves {c : Client} (h : RunInvariant s) (hset : Setting t)
    (hruns : Runs s t a.client)
    (hmoves : Moves no s.memory (s.pcs no) c.pc)
    (hclient : t.client = Function.update s.client no c)
    (hmutex : t.mutexSem.value = s.mutexSem.value)
    (hposts : t.startPosts = s.startPosts) (htrace : t.trace = s.trace) : RunInvariant t := by
  have hpcs := pcs_of_client hclient
  have hinit : t.initialised = s.initialised := initialised_of_trace htrace
  refine h.of_update hset hpcs hruns.running_all hposts ?_ (hinit ▸ id) ?_ ?_ ?_ ?_
  · intro hzero
    exact hmutex.trans (h.free hzero)
  · rintro rfl hpc
    have hbefore := Moves.postStart (hpc ▸ hmoves)
    exact hinit ▸ h.written (.inr hbefore)
  · intro hpc
    rcases hmoves.exchanging hpc with hbefore | ⟨htest, hlock⟩
    · exact h.exchange no hbefore
    · have hself : t.pcs no = .lock 0 := by rw [hpcs, Function.update_self, hlock]
      exact h.approach no (htest ▸ rfl) (hruns.enters_all htest hself)
  · intro hpc hrun
    exact h.approach no (hmoves.approaching hpc) (hruns.running_all no hrun)
  · intro hno hpc
    exact hinit ▸ h.barrier no hno (hmoves.started hpc)

/-- Client 3 posts after the store of the first message. -/
theorem of_posts (h : RunInvariant s)
    (hset : Setting { s.goto no pc with
      startSem := s.startSem.post, startPosts := s.startPosts + 1 })
    (hposts : Posts (s.pcs no) pc) :
    RunInvariant { s.goto no pc with
      startSem := s.startSem.post, startPosts := s.startPosts + 1 } := by
  have hthree : no = .three := hposts.three (h.setting.program no)
  have hinit : s.initialised = true := by
    cases hpc : s.pcs no with
    | postStart => exact h.written (.inr (hthree ▸ hpc))
    | postStartAgain => exact h.written (.inl (h.exchange no (hpc ▸ rfl)))
    | _ =>
        rw [hpc] at hposts
        cases hposts
  refine ⟨hset, fun hzero => ?_, fun _ => hinit, ?_, ?_, fun _ _ _ => hinit⟩
  · cases hzero
  · exact fun _ _ => Nat.succ_pos _
  · exact fun _ _ _ => Nat.succ_pos _

theorem act {bound : Nat} (h : RunInvariant s) (hclean : CleanStart s (.act a))
    (hstep : step bound s a = some t) : RunInvariant t := by
  have hruns := step_runs hstep
  have heffect := step_effect hstep
  have hset := h.setting.effect heffect
  cases heffect with
  | moves hmoves hclient hmutex hstart hmemory hposts htrace hplain =>
      exact h.of_moves hset hruns hmoves hclient hmutex hposts htrace
  | @createMutex no c hpc hc =>
      have hthree : no = .three := h.setting.inProgram_at hpc
      refine h.of_update hset (pcs_of_client_at (s := s) hc rfl) hruns.running_all rfl ?_ id
        nofun nofun nofun ?_
      · intro hzero
        exact Semaphore.create_value (h.free hzero)
      · exact fun hno => absurd hthree hno
  | @createStart no c hpc hc =>
      have hthree : no = .three := h.setting.inProgram_at hpc
      refine h.of_update hset (pcs_of_client_at (s := s) hc rfl) hruns.running_all rfl h.free id
        nofun nofun ?_ ?_
      · rw [hthree]
        exact nofun
      · exact fun hno => absurd hthree hno
  | @waitStart no sem hpc hwait =>
      have hposted := h.setting.posted (Semaphore.wait_value hwait).1
      refine h.of_update hset (pcs_of_client (s := s) rfl) hruns.running_all rfl h.free id
        nofun nofun ?_ ?_
      · exact fun _ _ => hposted
      · exact fun _ _ => h.written (.inl hposted)
  | @interruptStart no c hpc hc =>
      refine h.of_update hset (pcs_of_client_at (s := s) hc rfl) hruns.running_all rfl h.free id
        nofun nofun ?_ ?_
      · intro _ hrun
        rw [interrupt_not_running hstep] at hrun
        cases hrun
      · exact fun _ _ => hclean hpc
  | postStart hposts => exact h.of_posts hset hposts
  | @lock no i sem hpc hwait =>
      refine h.of_update hset (pcs_of_client (s := s) rfl) hruns.running_all rfl ?_ id
        nofun ?_ nofun ?_
      · exact fun hzero => absurd hzero (h.startPosts_ne_zero hpc rfl)
      · exact fun _ => h.exchange no (hpc ▸ rfl)
      · exact fun hno _ => h.barrier no hno (hpc ▸ rfl)
  | @interruptLock no c i hpc hc =>
      refine h.of_update hset (pcs_of_client_at (s := s) hc rfl) hruns.running_all rfl h.free id
        nofun ?_ nofun ?_
      · exact fun _ => h.exchange no (hpc ▸ rfl)
      · exact fun hno _ => h.barrier no hno (hpc ▸ rfl)
  | @unlock no i hpc =>
      refine h.of_update hset (pcs_of_client (s := s) rfl) hruns.running_all rfl ?_ id
        nofun ?_ nofun ?_
      · exact fun hzero => absurd hzero (h.startPosts_ne_zero hpc rfl)
      · exact fun _ => h.exchange no (hpc ▸ rfl)
      · exact fun hno _ => h.barrier no hno (hpc ▸ rfl)
  | @stores no pc memory hstores =>
      obtain ⟨hexchange, happroach, hpost⟩ := hstores.exchanging
      refine h.of_update hset (pcs_of_client (s := s) rfl) hruns.running_all rfl h.free id
        ?_ ?_ ?_ ?_
      · exact fun _ hpc => absurd hpc hpost
      · exact fun hpc => h.exchange no (hexchange ▸ hpc)
      · intro hpc
        change pc.approaching no = true at hpc
        rw [happroach] at hpc
        cases hpc
      · exact fun hno hpc => h.barrier no hno (hstores.started ▸ hpc)
  | @completes no pc n memory hcompletes hmemory =>
      cases hpc : s.pcs no with
      | initText =>
          rw [hpc] at hcompletes
          cases hcompletes
          obtain rfl : no = .three := h.setting.inProgram_at hpc
          refine h.of_update hset (pcs_of_client (s := s) rfl) hruns.running_all rfl h.free
            (initialised_append rfl) ?_ nofun nofun nofun
          exact fun _ _ => initialised_of_wrote rfl
      | writeText i =>
          rw [hpc] at hcompletes
          cases hcompletes
          refine h.of_update hset (pcs_of_client (s := s) rfl) hruns.running_all rfl h.free
            (initialised_append rfl) nofun ?_ nofun ?_
          · exact fun _ => h.exchange no (hpc ▸ rfl)
          · exact fun hno _ => initialised_append rfl (h.barrier no hno (hpc ▸ rfl))
      | _ =>
          rw [hpc] at hcompletes
          cases hcompletes
  | @prints no i src hpc =>
      refine h.of_update hset (pcs_of_client (s := s) rfl) hruns.running_all rfl h.free
        (initialised_append rfl) nofun ?_ nofun ?_
      · exact fun _ => h.exchange no (hpc ▸ rfl)
      · exact fun hno _ => initialised_append rfl (h.barrier no hno (hpc ▸ rfl))

theorem kill (h : RunInvariant s) (no : ClientNo) : RunInvariant (s.goto no .exited) := by
  have hpcs := goto_pcs s no .exited
  have hset : Setting (s.goto no .exited) :=
    h.setting.of_update hpcs trivial nofun rfl le_rfl
  refine h.of_update hset hpcs (fun k hk => ?_) rfl h.free id nofun nofun nofun nofun
  rcases eq_or_ne k no with rfl | hne
  · rwa [State.goto, setClient_client] at hk
  · rwa [State.goto, setClient_client_of_ne s _ hne] at hk

end RunInvariant

theorem leftBehind_clean {value : Nat} {sem : Semaphore}
    (h : sem.linked = true → sem.value = value) :
    leftBehind value sem = { linked := sem.linked, value := value } := by
  unfold leftBehind
  split
  case isTrue hlinked => rw [← h hlinked]
  case isFalse hlinked => rw [eq_false_of_ne_true hlinked]

/-- What a clean run finds are fresh semaphores. -/
theorem restart_clean {s : State} (h : CleanStart s .restart) :
    s.restart = State.initial s.mutexSem.linked s.startSem.linked s.keyed s.memory := by
  unfold State.restart State.initial
  rw [leftBehind_clean h.1, leftBehind_clean h.2]

theorem historyStep_invariant {bound : Nat} {s t : State} {a : HistoryAction}
    (h : RunInvariant s) (hclean : CleanStart s a) (hstep : historyStep bound s a = some t) :
    RunInvariant t := by
  cases a with
  | act a => exact h.act hclean hstep
  | kill no =>
      simp only [historyStep] at hstep
      split at hstep
      · cases hstep
      · cases hstep
        exact h.kill no
  | restart =>
      simp only [historyStep] at hstep
      split at hstep
      · cases hstep
        rw [restart_clean hclean]
        exact RunInvariant.initial _ _ _ _
      · cases hstep

/-- For every history of runs, whatever is killed in them. -/
theorem restart_clean_lawful (bound : Nat) (mutexLinked startLinked keyed : Bool)
    (memory : Memory) (acts : List HistoryAction)
    (h : StepsMeet (historyStep bound) CleanStart
      (State.initial mutexLinked startLinked keyed memory) acts) :
    StatesMeet (historyStep bound) RestartLaw
      (State.initial mutexLinked startLinked keyed memory) acts := by
  have hinv : StatesMeet (historyStep bound) RunInvariant
      (State.initial mutexLinked startLinked keyed memory) acts :=
    StatesMeet.of_stepsMeet (fun _ _ _ => historyStep_invariant)
      (RunInvariant.initial mutexLinked startLinked keyed memory) h
  exact hinv.mono fun _ => RunInvariant.restartLaw

/-- Client 3 is killed between the creation of the two semaphores and the posts, and
the next run finds them unused. -/
theorem restart_clean_lawful_unused :
    StatesMeet (historyStep 30) RestartLaw (State.initial false false false ⟨0, 0, ""⟩)
      (List.replicate 5 (.act (.run .three)) ++ [.kill .three, .kill .one, .kill .two, .restart] ++
        List.replicate 10 (.act (.run .three)) ++ List.replicate 6 (.act (.run .one))) :=
  restart_clean_lawful 30 false false false ⟨0, 0, ""⟩ _ (by decide)

theorem leftBehind_create {value : Nat} {sem : Semaphore} :
    ((leftBehind value sem).create value).value = value ↔
      (sem.linked = true → sem.value = value) := by
  unfold leftBehind Semaphore.create
  cases hlinked : sem.linked with
  | true => simp [hlinked]
  | false => simp

/-- Client 3 of a new run at its call of `shmget`. -/
theorem restart_ready (bound : Nat) (s : State) :
    ∃ t, run (historyStep bound) s.restart (List.replicate 3 (.act (.run .three))) = some t ∧
      t.pcs .three = .shmget ∧ t.mutexSem = (leftBehind 1 s.mutexSem).create 1 ∧
      t.startSem = (leftBehind 0 s.startSem).create 0 :=
  ⟨_, rfl, rfl, rfl, rfl⟩

/-- The condition leaves out nothing: after any other step the law fails in some
continuation. -/
theorem unclean_breaks {bound : Nat} {s t : State} {a : HistoryAction} (h : RunInvariant s)
    (hunclean : ¬ CleanStart s a) (hstep : historyStep bound s a = some t) :
    ∃ acts, ¬ StatesMeet (historyStep bound) RestartLaw t acts := by
  cases a with
  | act a =>
      cases a with
      | interrupt no =>
          obtain ⟨hpc, hinit⟩ := Classical.not_imp.mp hunclean
          obtain ⟨pc, hwait, rfl⟩ := Option.map_eq_some_iff.mp hstep
          rw [hpc] at hwait
          obtain rfl : Pc.shmget = pc := Option.some.inj hwait
          have hno : no ≠ .three := h.setting.inProgram_at hpc
          refine ⟨[], fun hlaw => hinit ?_⟩
          -- the trace is the same, and the client has started
          refine hlaw.barrier no hno ?_
          unfold State.pcs
          rw [setClient_client]
          rfl
      | run no | fails no | sigint no => exact absurd trivial hunclean
  | kill no => exact absurd trivial hunclean
  | restart =>
      simp only [historyStep] at hstep
      split at hstep
      · cases hstep
        obtain ⟨u, hrun, hpc, hmutex, hstart⟩ := restart_ready bound s
        refine ⟨List.replicate 3 (.act (.run .three)), fun hlaw => hunclean ?_⟩
        have hbegins := (hlaw.last hrun).begins (hpc ▸ rfl)
        rw [hmutex, hstart, leftBehind_create, leftBehind_create] at hbegins
        exact hbegins
      · cases hstep

/-- Client 3 is killed between its two posts of `start_sem`, before anybody has
waited for it; in the next run client 1 is the first. -/
def killedBetweenPosts : List HistoryAction :=
  List.replicate 10 (.act (.run .three)) ++ [.kill .three, .kill .one, .kill .two, .restart] ++
    List.replicate 4 (.act (.run .one))

/-- Client 1 has then passed `sem_wait(start_sem)` before client 3 has done anything. -/
theorem killedBetweenPosts_breaks :
    ∃ s, run (historyStep 30) (State.initial false false false ⟨0, 0, ""⟩) killedBetweenPosts =
        some s ∧
      s.pcs .one = .shmget ∧ s.pcs .three = .sigaction ∧ s.initialised = false ∧
      ¬ RestartLaw s :=
  ⟨_, rfl, rfl, rfl, rfl, fun h => absurd (h.barrier .one nofun rfl) nofun⟩

end Unx511.Lab10
