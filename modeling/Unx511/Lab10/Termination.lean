import Unx511.Lab10.Chain
import Unx511.Lab10.Restart
import Unx511.Machine.Termination

/-!
The clients of Lab 10 come to their ends. A client can wait for the mutex, which one that
is in the critical section gives back, and clients 1 and 2 for the start semaphore, which
client 3 posts once for each of them unless its set-up fails. SIGINT may have interrupted
any wait before: a unit that is posted without having been taken stops nobody.
-/

namespace Unx511.Lab10

open Unx511.Machine Unx511.Posix

namespace Pc

/-- The statements to the end of the client, `bound` times around its loop. -/
def rank (bound : Nat) : Pc → Nat
  | .sigaction => 11 * bound + 36
  | .openMutex retries => 11 * bound + 25 + retries
  | .openStart retries => 11 * bound + 14 + retries
  | .waitStart => 11 * bound + 13
  | .createMutex => 11 * bound + 14
  | .createStart => 11 * bound + 13
  | .shmget => 11 * bound + 12
  | .shmat => 11 * bound + 11
  | .initSrc => 11 * bound + 10
  | .initDest => 11 * bound + 9
  | .initClear => 11 * bound + 8
  | .initText => 11 * bound + 7
  | .postStart => 11 * bound + 6
  | .postStartAgain => 11 * bound + 5
  | .test i => 11 * (bound - i) + 4
  | .lock i => 11 * (bound - (i + 1)) + 14
  | .inspect i => 11 * (bound - (i + 1)) + 13
  | .readSrc i => 11 * (bound - (i + 1)) + 12
  | .readText i _ => 11 * (bound - (i + 1)) + 11
  | .writeSrc i => 11 * (bound - (i + 1)) + 10
  | .writeDest i => 11 * (bound - (i + 1)) + 9
  | .clearText i => 11 * (bound - (i + 1)) + 8
  | .writeText i => 11 * (bound - (i + 1)) + 7
  | .unlock i => 11 * (bound - (i + 1)) + 6
  | .sleep i => 11 * (bound - (i + 1)) + 5
  | .detach => 3
  | .unlinkMutex => 2
  | .unlinkStart => 1
  | .exited => 0

/-- The posts that client 3 still has to make. -/
def postsLeft (pc : Pc) : Nat :=
  if pc.beforePosts then 2 else if pc = .postStartAgain then 1 else 0

/-- Clients 1 and 2 have not been through `sem_wait(start_sem)`. -/
def beforeStart : Pc → Bool
  | .sigaction | .openMutex _ | .openStart _ | .waitStart => true
  | _ => false

/-- `sem_wait` is the next call. -/
def waits : Pc → Bool
  | .waitStart | .lock _ => true
  | _ => false

end Pc

/-- The clients that have not been through `sem_wait(start_sem)`. -/
def State.toStart (s : State) : Nat :=
  (s.pcs .one).beforeStart.toNat + (s.pcs .two).beforeStart.toNat

/-- Client 3 is not ended by SIGINT before it has its handler, and no call of its set-up
fails. -/
def SetUpSucceeds (s : State) (a : Action) : Prop :=
  a ≠ .fails .three ∧ (a = .sigint .three → s.pcs .three ≠ .sigaction)

instance (s : State) (a : Action) : Decidable (SetUpSucceeds s a) :=
  inferInstanceAs (Decidable (_ ∧ _))

/-- Whoever waits is waited for by somebody, or has a unit to take. -/
structure Lively (s : State) : Prop where
  setting : Setting s
  unit : 1 ≤ s.mutexSem.value + holders Pc.inCritical s.pcs
  starts : s.toStart + s.startPosts ≤ s.startSem.value + 2
  posts : (s.pcs .three).postsLeft + s.startPosts = 2

def AllExited (s : State) : Prop := ∀ no, s.pcs no = .exited

/-- Client `no` has gone on to `pc`. -/
structure Goes (bound : Nat) (s : State) (no : ClientNo) (t : State) (pc : Pc) : Prop where
  pcs : t.pcs = Function.update s.pcs no pc
  down : pc.rank bound < (s.pcs no).rank bound
  posts : no = .three →
    pc.postsLeft + t.startPosts = (s.pcs no).postsLeft + s.startPosts
  others : no ≠ .three → t.startPosts = s.startPosts

variable {bound : Nat} {s t : State} {a : Action} {no : ClientNo} {pc pc' : Pc}

/-- A step that does not post. -/
theorem Goes.of_update (hpc : s.pcs no = pc') {c : Client}
    (hclient : t.client = Function.update s.client no c) (hposts : t.startPosts = s.startPosts)
    (hdown : c.pc.rank bound < pc'.rank bound)
    (hleft : no = .three → c.pc.postsLeft = pc'.postsLeft) : Goes bound s no t c.pc where
  pcs := pcs_of_client hclient
  down := by
    rw [hpc]
    exact hdown
  posts hthree := by rw [hpc, hposts, hleft hthree]
  others _ := hposts

theorem setupStep_goes (hpc : s.pcs no = pc) (hprogram : pc.inProgram no)
    (h : setupStep no s pc = some t) : ∃ pc', Goes bound s no t pc' := by
  cases pc with
  | sigaction =>
      cases h
      refine ⟨_, .of_update hpc rfl rfl ?_ fun hthree => ?_⟩
      · change (if no = .three then Pc.createMutex else .openMutex 10).rank bound < _
        split <;> simp [Pc.rank]
      · subst hthree
        rfl
  | openMutex retries =>
      cases retries with
      | zero =>
          cases h
          exact ⟨_, .of_update hpc rfl rfl (by simp only [Pc.rank]; omega) fun _ => rfl⟩
      | succ retries =>
          simp only [setupStep] at h
          split at h <;> cases h
          · exact ⟨_, .of_update hpc rfl rfl (by simp only [Pc.rank]; omega) fun _ => rfl⟩
          · exact ⟨_, .of_update hpc rfl rfl (by simp only [Pc.rank]; omega) fun _ => rfl⟩
  | openStart retries =>
      cases retries with
      | zero =>
          cases h
          exact ⟨_, .of_update hpc rfl rfl (by simp only [Pc.rank]; omega) fun _ => rfl⟩
      | succ retries =>
          simp only [setupStep] at h
          split at h <;> cases h
          · exact ⟨_, .of_update hpc rfl rfl (by simp only [Pc.rank]; omega) fun _ => rfl⟩
          · exact ⟨_, .of_update hpc rfl rfl (by simp only [Pc.rank]; omega) fun _ => rfl⟩
  | waitStart =>
      obtain ⟨sem, _, rfl⟩ := Option.map_eq_some_iff.mp h
      exact ⟨_, .of_update (c := { s.client no with pc := .shmget }) hpc rfl rfl
        (by simp [Pc.rank]) fun hthree => absurd hthree hprogram⟩
  | createMutex | createStart | initSrc | initDest | initClear | initText =>
      cases h
      exact ⟨_, .of_update hpc rfl rfl (by simp [Pc.rank]) fun _ => rfl⟩
  | shmget =>
      simp only [setupStep] at h
      split at h
      case isTrue =>
        cases h
        exact ⟨_, .of_update (c := { s.client no with pc := .shmat }) hpc rfl rfl
          (by simp [Pc.rank]) fun _ => rfl⟩
      case isFalse hthree =>
        cases h
        refine ⟨_, .of_update hpc rfl rfl ?_ fun h => absurd h hthree⟩
        change (if s.keyed then Pc.shmat else .detach).rank bound < _
        split <;> simp only [Pc.rank] <;> omega
  | shmat =>
      cases h
      refine ⟨_, .of_update hpc rfl rfl ?_ fun hthree => ?_⟩
      · change (if no = .three then Pc.initSrc else .test 0).rank bound < _
        split <;> simp only [Pc.rank] <;> omega
      · subst hthree
        rfl
  | postStart =>
      cases h
      refine ⟨.postStartAgain,
        pcs_of_client (c := { s.client no with pc := .postStartAgain }) rfl, ?_,
        fun _ => ?_, fun hno => absurd hprogram hno⟩
      · rw [hpc]
        simp [Pc.rank]
      · rw [hpc]
        change 1 + (s.startPosts + 1) = 2 + s.startPosts
        omega
  | postStartAgain =>
      cases h
      refine ⟨.test 0, pcs_of_client (c := { s.client no with pc := .test 0 }) rfl, ?_,
        fun _ => ?_, fun hno => absurd hprogram hno⟩
      · rw [hpc]
        simp only [Pc.rank]
        omega
      · rw [hpc]
        change 0 + (s.startPosts + 1) = 1 + s.startPosts
        omega
  | _ => cases h

theorem loopStep_goes (hpc : s.pcs no = pc) (h : loopStep bound no s pc = some t) :
    ∃ pc', Goes bound s no t pc' := by
  cases pc with
  | test i =>
      cases h
      refine ⟨_, .of_update hpc rfl rfl ?_ fun _ => ?_⟩
      · change (if i < bound ∧ (s.client no).isRunning then Pc.lock i else .detach).rank bound < _
        split
        case isTrue hagain =>
          have hi := hagain.1
          simp only [Pc.rank]
          omega
        case isFalse =>
          simp only [Pc.rank]
          omega
      · change (if i < bound ∧ (s.client no).isRunning then Pc.lock i else .detach).postsLeft = 0
        split <;> rfl
  | lock i =>
      obtain ⟨sem, _, rfl⟩ := Option.map_eq_some_iff.mp h
      exact ⟨_, .of_update (c := { s.client no with pc := .inspect i }) hpc rfl rfl
        (by simp [Pc.rank]) fun _ => rfl⟩
  | inspect i =>
      cases h
      refine ⟨_, .of_update hpc rfl rfl ?_ fun _ => ?_⟩
      · change (if s.memory.destClientNo = no.val then Pc.readSrc i else .unlock i).rank bound < _
        split <;> simp [Pc.rank]
      · change (if s.memory.destClientNo = no.val then Pc.readSrc i else .unlock i).postsLeft = 0
        split <;> rfl
  | readSrc i | readText i src | writeSrc i | writeDest i | clearText i | writeText i | unlock i =>
      cases h
      exact ⟨_, .of_update hpc rfl rfl (by simp [Pc.rank]) fun _ => rfl⟩
  | sleep i =>
      cases h
      exact ⟨_, .of_update hpc rfl rfl (by simp [Pc.rank]) fun _ => rfl⟩
  | _ => cases h

theorem cleanupStep_goes (hpc : s.pcs no = pc) (h : cleanupStep no s pc = some t) :
    ∃ pc', Goes bound s no t pc' := by
  cases pc with
  | detach =>
      simp only [cleanupStep] at h
      split at h <;> cases h
      · exact ⟨_, .of_update hpc rfl rfl (by simp [Pc.rank]) fun _ => rfl⟩
      · exact ⟨_, .of_update hpc rfl rfl (by simp [Pc.rank]) fun _ => rfl⟩
  | unlinkMutex | unlinkStart =>
      cases h
      exact ⟨_, .of_update hpc rfl rfl (by simp [Pc.rank]) fun _ => rfl⟩
  | _ => cases h

theorem clientStep_goes (hprogram : (s.pcs no).inProgram no) (h : clientStep bound no s = some t) :
    ∃ pc', Goes bound s no t pc' := by
  rcases Option.or_eq_some_iff.mp h with hsetup | ⟨_, hrest⟩
  · exact setupStep_goes rfl hprogram hsetup
  · rcases Option.or_eq_some_iff.mp hrest with hloop | ⟨_, hcleanup⟩
    · exact loopStep_goes rfl hloop
    · exact cleanupStep_goes rfl hcleanup

theorem failingCall_rank (h : failingCall pc = some pc') : pc'.rank bound < pc.rank bound := by
  cases pc with
  | openMutex retries | openStart retries =>
      cases retries with
      | zero => cases h
      | succ retries =>
          cases h
          simp [Pc.rank]
  | createMutex | createStart | shmget | shmat =>
      cases h
      simp only [Pc.rank]
      omega
  | _ => cases h

/-- A step other than SIGINT brings a client nearer to its end. -/
theorem step_rank (hset : Setting s) (hplain : noSigint s a) (h : step bound s a = some t) :
    totalRank (Pc.rank bound) t.pcs < totalRank (Pc.rank bound) s.pcs := by
  cases a with
  | run no =>
      obtain ⟨pc, hgoes⟩ := clientStep_goes (hset.program no) h
      rw [hgoes.pcs]
      exact totalRank_update_lt hgoes.down
  | fails no =>
      obtain ⟨pc, hfail, rfl⟩ := Option.map_eq_some_iff.mp h
      rw [goto_pcs]
      exact totalRank_update_lt (failingCall_rank hfail)
  | sigint no | interrupt no => cases hplain

theorem three_of_update {pcs : ClientNo → Pc} (hno : no ≠ .three) :
    Function.update pcs no pc .three = pcs .three :=
  Function.update_of_ne hno.symm _ _

theorem step_posts (hset : Setting s) (hsetup : SetUpSucceeds s a) (h : step bound s a = some t) :
    (t.pcs .three).postsLeft + t.startPosts = (s.pcs .three).postsLeft + s.startPosts := by
  cases a with
  | run no =>
      obtain ⟨pc, hgoes⟩ := clientStep_goes (hset.program no) h
      rw [hgoes.pcs]
      by_cases hno : no = .three
      · subst hno
        rw [Function.update_self]
        exact hgoes.posts rfl
      · rw [three_of_update hno, hgoes.others hno]
  | fails no =>
      obtain ⟨pc, _, rfl⟩ := Option.map_eq_some_iff.mp h
      have hno : no ≠ .three := fun hno => hsetup.1 (by rw [hno])
      rw [goto_pcs, three_of_update hno]
      rfl
  | sigint no =>
      simp only [step] at h
      split at h
      · cases h
      case h_2 hpc =>
        cases h
        have hno : no ≠ .three := by
          rintro rfl
          exact hsetup.2 rfl hpc
        rw [goto_pcs, three_of_update hno]
        rfl
      · cases h
        rw [pcs_of_client (s := s) (c := handler (s.client no)) rfl]
        change (Function.update s.pcs no (s.pcs no) .three).postsLeft + _ = _
        rw [Function.update_eq_self]
        rfl
  | interrupt no =>
      obtain ⟨pc, hwait, rfl⟩ := Option.map_eq_some_iff.mp h
      have hprogram := hset.program no
      rw [pcs_of_client (s := s) (c := { handler (s.client no) with pc := pc }) rfl]
      by_cases hno : no = .three
      · subst hno
        rw [Function.update_self]
        generalize s.pcs .three = pc0 at *
        cases pc0 with
        | waitStart => exact absurd rfl hprogram
        | lock i =>
            cases hwait
            rfl
        | _ => cases hwait
      · rw [three_of_update hno]
        rfl

theorem toStart_le (hpcs : t.pcs = Function.update s.pcs no pc)
    (hback : pc.beforeStart = true → (s.pcs no).beforeStart = true) : t.toStart ≤ s.toStart := by
  have hle : pc.beforeStart.toNat ≤ (s.pcs no).beforeStart.toNat := by
    cases hpc : pc.beforeStart with
    | false => exact Nat.zero_le _
    | true => rw [hback hpc]
  unfold State.toStart
  rw [hpcs]
  cases no with
  | one =>
      rw [Function.update_self, Function.update_of_ne (by decide)]
      omega
  | two =>
      rw [Function.update_self, Function.update_of_ne (by decide)]
      omega
  | three => rw [Function.update_of_ne (by decide), Function.update_of_ne (by decide)]

theorem toStart_leave (hpcs : t.pcs = Function.update s.pcs no pc) (hno : no ≠ .three)
    (hold : (s.pcs no).beforeStart = true) (hnew : pc.beforeStart = false) :
    t.toStart + 1 = s.toStart := by
  unfold State.toStart
  rw [hpcs]
  cases no with
  | one =>
      rw [Function.update_self, Function.update_of_ne (by decide), hold, hnew]
      simp only [Bool.toNat_true, Bool.toNat_false]
      omega
  | two =>
      rw [Function.update_self, Function.update_of_ne (by decide), hold, hnew]
      rfl
  | three => exact absurd rfl hno

theorem Moves.beforeStart {memory : Memory} (h : Moves no memory pc pc')
    (hpc : pc'.beforeStart = true) : pc.beforeStart = true := by
  cases h <;> first | assumption | rfl

theorem Stores.beforeStart {memory memory' : Memory} (h : Stores no memory pc pc' memory') :
    pc'.beforeStart = false := by
  cases h <;> rfl

theorem Completes.beforeStart {n : Nat} (h : Completes pc pc' n) : pc'.beforeStart = false := by
  cases h <;> rfl

theorem Posts.beforeStart (h : Posts pc pc') : pc'.beforeStart = false := by
  cases h <;> rfl

/-- The unit of the mutex is free, or somebody will post one. -/
theorem unit_effect (hunit : 1 ≤ s.mutexSem.value + holders Pc.inCritical s.pcs)
    (h : Effect s a t) : 1 ≤ t.mutexSem.value + holders Pc.inCritical t.pcs := by
  have hframe : ∀ {no pc}, t.pcs = Function.update s.pcs no pc →
      pc.inCritical = (s.pcs no).inCritical → t.mutexSem.value = s.mutexSem.value →
      1 ≤ t.mutexSem.value + holders Pc.inCritical t.pcs := by
    intro no pc hpcs hsame hvalue
    rw [hpcs, holders_update_same hsame, hvalue]
    exact hunit
  cases h with
  | moves hmoves hclient hmutex =>
      exact hframe (pcs_of_client hclient) hmoves.inCritical hmutex
  | @createMutex no c hpc hc =>
      have hcreate : 1 ≤ (s.mutexSem.create 1).value ∨ s.mutexSem.create 1 = s.mutexSem := by
        unfold Semaphore.create
        split
        · exact .inr rfl
        · exact .inl le_rfl
      rcases hcreate with hone | hsame
      · exact hone.trans (Nat.le_add_right _ _)
      · refine hframe (pcs_of_client (s := s) (c := c) rfl) ?_ (congrArg _ hsame)
        rw [hc, hpc]
        rfl
  | createStart hpc hc | interruptStart hpc hc =>
      refine hframe (pcs_of_client (s := s) rfl) ?_ rfl
      rw [hc, hpc]
      rfl
  | waitStart hpc _ =>
      refine hframe (goto_pcs s _ _) ?_ rfl
      rw [hpc]
      rfl
  | postStart hposts => exact hframe (goto_pcs s _ _) hposts.inCritical rfl
  | @lock no i sem hpc hwait =>
      have henter : holders Pc.inCritical (Function.update s.pcs no (.inspect i)) =
          holders Pc.inCritical s.pcs + 1 := holders_update_enter (by rw [hpc]; rfl) rfl
      change 1 ≤ sem.value + holders Pc.inCritical (s.goto no (.inspect i)).pcs
      rw [goto_pcs, henter]
      omega
  | @interruptLock no c i hpc hc =>
      have henter : holders Pc.inCritical (Function.update s.pcs no c.pc) =
          holders Pc.inCritical s.pcs + 1 :=
        holders_update_enter (by rw [hpc]; rfl) (by rw [hc]; rfl)
      rw [pcs_of_client (s := s) (c := c) rfl, henter]
      exact hunit.trans (Nat.add_le_add_left (Nat.le_succ _) _)
  | unlock hpc =>
      change 1 ≤ s.mutexSem.value + 1 + _
      omega
  | stores hstores => exact hframe (goto_pcs s _ _) hstores.inCritical rfl
  | completes hcompletes => exact hframe (goto_pcs s _ _) hcompletes.inCritical rfl
  | prints hpc =>
      refine hframe (goto_pcs s _ _) ?_ rfl
      rw [hpc]
      rfl

/-- There is a post of `start_sem` for each of clients 1 and 2. -/
theorem starts_effect (hset : Setting s)
    (hstarts : s.toStart + s.startPosts ≤ s.startSem.value + 2) (h : Effect s a t) :
    t.toStart + t.startPosts ≤ t.startSem.value + 2 := by
  have hframe : ∀ {no pc}, t.pcs = Function.update s.pcs no pc →
      (pc.beforeStart = true → (s.pcs no).beforeStart = true) →
      t.startPosts = s.startPosts → t.startSem.value = s.startSem.value →
      t.toStart + t.startPosts ≤ t.startSem.value + 2 := by
    intro no pc hpcs hback hposts hvalue
    have hle := toStart_le hpcs hback
    omega
  cases h with
  | moves hmoves hclient _ hstart _ hposts =>
      exact hframe (pcs_of_client hclient) hmoves.beforeStart hposts hstart
  | createMutex hpc hc =>
      refine hframe (pcs_of_client (s := s) rfl) ?_ rfl rfl
      rw [hc]
      exact nofun
  | @createStart no c hpc hc =>
      have hzero : s.startSem.value = 0 := by
        by_contra hne
        have hposted := hset.posted (Nat.pos_of_ne_zero hne)
        have hbefore := hset.startPosts_eq_zero hpc (hset.inProgram_at hpc) rfl
        omega
      refine hframe (pcs_of_client (s := s) (c := c) rfl) ?_ rfl ?_
      · rw [hc]
        exact nofun
      · exact (Semaphore.create_value hzero).trans hzero.symm
  | @waitStart no sem hpc hwait =>
      have hvalue := (Semaphore.wait_value hwait).2
      have hleave := toStart_leave (goto_pcs s no .shmget) (hset.inProgram_at hpc)
        (by rw [hpc]; rfl) rfl
      change (s.goto no .shmget).toStart + s.startPosts ≤ sem.value + 2
      omega
  | @interruptStart no c hpc hc =>
      refine hframe (pcs_of_client (s := s) (c := c) rfl) ?_ rfl rfl
      rw [hc]
      exact nofun
  | @postStart no pc hposts =>
      have hle := toStart_le (goto_pcs s no pc) fun hpc => by
        cases hposts.beforeStart.symm.trans hpc
      change (s.goto no pc).toStart + (s.startPosts + 1) ≤ s.startSem.value + 1 + 2
      omega
  | lock | unlock | prints => exact hframe (goto_pcs s _ _) nofun rfl rfl
  | @interruptLock no c i hpc hc =>
      refine hframe (pcs_of_client (s := s) (c := c) rfl) ?_ rfl rfl
      rw [hc]
      exact nofun
  | stores hstores =>
      exact hframe (goto_pcs s _ _) (fun hpc => by cases hstores.beforeStart.symm.trans hpc) rfl rfl
  | completes hcompletes =>
      exact hframe (goto_pcs s _ _) (fun hpc => by cases hcompletes.beforeStart.symm.trans hpc)
        rfl rfl

theorem Lively.initial (mutexLinked startLinked keyed : Bool) (memory : Memory) :
    Lively (State.initial mutexLinked startLinked keyed memory) where
  setting := Setting.initial mutexLinked startLinked keyed memory
  unit := Nat.le_add_right 1 _
  starts := le_rfl
  posts := rfl

theorem Lively.step (hs : Lively s) (hsetup : SetUpSucceeds s a) (h : step bound s a = some t) :
    Lively t where
  setting := hs.setting.effect (step_effect h)
  unit := unit_effect hs.unit (step_effect h)
  starts := starts_effect hs.setting hs.starts (step_effect h)
  posts := (step_posts hs.setting hsetup h).trans hs.posts

/-- A client that does not wait has a next statement. -/
theorem clientStep_isSome (hwaits : (s.pcs no).waits = false) (hexited : s.pcs no ≠ .exited) :
    (clientStep bound no s).isSome = true := by
  unfold clientStep
  generalize s.pcs no = pc at *
  cases pc with
  | waitStart | lock i => cases hwaits
  | exited => exact absurd rfl hexited
  | openMutex retries | openStart retries =>
      cases retries with
      | zero => rfl
      | succ retries =>
          simp only [setupStep]
          split <;> rfl
  | shmget | detach =>
      simp only [setupStep, loopStep, cleanupStep]
      split <;> rfl
  | _ => rfl

theorem clientStep_lock {i : Nat} (hpc : s.pcs no = .lock i) (hfree : 0 < s.mutexSem.value) :
    (clientStep bound no s).isSome = true := by
  simp [clientStep, hpc, setupStep, loopStep, Semaphore.wait, hfree]

theorem clientStep_waitStart (hpc : s.pcs no = .waitStart) (hfree : 0 < s.startSem.value) :
    (clientStep bound no s).isSome = true := by
  simp [clientStep, hpc, setupStep, Semaphore.wait, hfree]

theorem Lively.start_free (hs : Lively s) (hthree : s.pcs .three = .exited)
    (hpc : s.pcs no = .waitStart) : 0 < s.startSem.value := by
  have hstarts := hs.starts
  have hposts := hs.posts
  rw [hthree] at hposts
  have hall : s.startPosts = 2 := (Nat.zero_add _).symm.trans hposts
  have hwaiting : 1 ≤ s.toStart := by
    unfold State.toStart
    cases no with
    | one =>
        rw [hpc]
        exact Nat.le_add_right 1 _
    | two =>
        rw [hpc]
        exact Nat.le_add_left 1 _
    | three => cases hthree.symm.trans hpc
  omega

/-- While a client has not exited, one of them can go on. -/
theorem Lively.goesOn (hs : Lively s) (hnot : ¬ AllExited s) :
    ∃ no, (clientStep bound no s).isSome = true := by
  by_contra hstuck
  push Not at hstuck
  have hrest : ∀ no, (s.pcs no).waits = true ∨ s.pcs no = .exited := by
    intro no
    by_contra hneither
    push Not at hneither
    exact hstuck no (clientStep_isSome (Bool.eq_false_iff.mpr hneither.1) hneither.2)
  have hfree : 0 < s.mutexSem.value := by
    have hout : ∀ no, (s.pcs no).inCritical = false := by
      intro no
      rcases hrest no with hwaits | hexited
      · generalize s.pcs no = pc at *
        cases pc <;> first | rfl | cases hwaits
      · rw [hexited]
        rfl
    have hnone : holders Pc.inCritical s.pcs = 0 := by simp [holders, hout]
    have hunit := hs.unit
    omega
  have hstart : ∀ no, s.pcs no = .waitStart ∨ s.pcs no = .exited := by
    intro no
    rcases hrest no with hwaits | hexited
    · cases hpc : s.pcs no with
      | waitStart => exact .inl rfl
      | lock i => exact absurd (clientStep_lock hpc hfree) (hstuck no)
      | _ =>
          rw [hpc] at hwaits
          cases hwaits
    · exact .inr hexited
  have hthree : s.pcs .three = .exited := by
    apply (hstart .three).resolve_left
    intro hpc
    exact hs.setting.inProgram_at hpc rfl
  apply hnot
  intro no
  apply (hstart no).resolve_left
  intro hpc
  exact hstuck no (clientStep_waitStart hpc (hs.start_free hthree hpc))

theorem totalRank_initial (mutexLinked startLinked keyed : Bool) (memory : Memory) :
    totalRank (Pc.rank bound) (State.initial mutexLinked startLinked keyed memory).pcs =
      33 * bound + 108 := by
  have hcard : (Finset.univ : Finset ClientNo).card = 3 := rfl
  change ∑ no : ClientNo, (11 * bound + 36) = 33 * bound + 108
  rw [Finset.sum_const, hcard, smul_eq_mul]
  omega

theorem step_rank_le (hset : Setting s) (h : step bound s a = some t) :
    totalRank (Pc.rank bound) t.pcs ≤ totalRank (Pc.rank bound) s.pcs := by
  cases a with
  | run no => exact (step_rank (a := .run no) hset rfl h).le
  | fails no => exact (step_rank (a := .fails no) hset rfl h).le
  | sigint no =>
      simp only [step] at h
      split at h
      · cases h
      case h_2 hpc =>
        cases h
        rw [goto_pcs]
        refine (totalRank_update_lt ?_).le
        rw [hpc]
        simp [Pc.rank]
      · cases h
        rw [pcs_of_client (s := s) (c := handler (s.client no)) rfl]
        change totalRank _ (Function.update s.pcs no (s.pcs no)) ≤ _
        rw [Function.update_eq_self]
  | interrupt no =>
      obtain ⟨pc, hwait, rfl⟩ := Option.map_eq_some_iff.mp h
      rw [pcs_of_client (s := s) (c := { handler (s.client no) with pc := pc }) rfl]
      refine (totalRank_update_lt ?_).le
      change pc.rank bound < (s.pcs no).rank bound
      generalize s.pcs no = pc0 at hwait
      cases pc0 with
      | waitStart | lock i =>
          cases hwait
          simp [Pc.rank]
      | _ => cases hwait

/-- From fresh semaphores, whatever SIGINT has interrupted so far, all clients exit when no
more of it comes and the set-up of client 3 succeeds. -/
theorem clients_exit (bound : Nat) (mutexLinked startLinked keyed : Bool) (memory : Memory)
    {acts : List Action}
    (hrun : run (step bound) (State.initial mutexLinked startLinked keyed memory) acts = some s)
    (hsetup : StepsMeet (step bound) SetUpSucceeds
      (State.initial mutexLinked startLinked keyed memory) acts) :
    EndsWithin (step bound) (fun s a => noSigint s a ∧ SetUpSucceeds s a) AllExited
      (33 * bound + 108) s := by
  have hs : Lively s ∧ totalRank (Pc.rank bound) s.pcs ≤ 33 * bound + 108 := by
    apply (Reaches.of_run acts hrun hsetup).invariant
      ⟨Lively.initial mutexLinked startLinked keyed memory, (totalRank_initial ..).le⟩
    intro s a t hs hcond hstep
    exact ⟨hs.1.step hcond hstep, (step_rank_le hs.1.setting hstep).trans hs.2⟩
  refine EndsWithin.mono (EndsWithin.of_rank (fun s => totalRank (Pc.rank bound) s.pcs)
    (I := Lively) ?_ ?_ ?_ hs.1) hs.2
  · exact fun s a t hs hcond hstep => hs.step hcond.2 hstep
  · exact fun s a t hs hcond hstep => step_rank hs.setting hcond.1 hstep
  · intro s hs hnot
    obtain ⟨no, hgoes⟩ : ∃ no, (clientStep bound no s).isSome = true := hs.goesOn hnot
    obtain ⟨t, hstep⟩ := Option.isSome_iff_exists.mp hgoes
    exact ⟨.run no, t, ⟨rfl, nofun, nofun⟩, hstep⟩

/-- Client 1 has been interrupted on the mutex that client 3 holds. -/
theorem clients_exit_interruptedLock :
    ∃ s, run (step 30) (State.initial false false false ⟨0, 0, ""⟩) interruptedLock = some s ∧
      EndsWithin (step 30) (fun s a => noSigint s a ∧ SetUpSucceeds s a) AllExited 1098 s := by
  have hsetup : StepsMeet (step 30) SetUpSucceeds (State.initial false false false ⟨0, 0, ""⟩)
      interruptedLock := by
    decide
  have hrun : run (step 30) (State.initial false false false ⟨0, 0, ""⟩) interruptedLock =
      some _ := rfl
  exact ⟨_, hrun, clients_exit 30 false false false ⟨0, 0, ""⟩ hrun hsetup⟩

/-- Client 3 cannot attach its segment when client 1 has found the semaphores. -/
def leftWaiting : List Action :=
  List.replicate 3 (.run .three) ++ List.replicate 3 (.run .one) ++ [.fails .three] ++
    List.replicate 3 (.run .three) ++ List.replicate 13 (.run .two)

/-- Then client 1 waits for ever. -/
example : ∃ s, run (step 30) (State.initial false false false ⟨0, 0, ""⟩) leftWaiting = some s ∧
    s.pcs .one = .waitStart ∧ ∀ a, noSigint s a → step 30 s a = none := by
  refine ⟨_, rfl, rfl, fun a hplain => ?_⟩
  cases a with
  | run no | fails no => cases no <;> rfl
  | sigint no | interrupt no => cases hplain

end Unx511.Lab10
