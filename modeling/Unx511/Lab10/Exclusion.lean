import Unx511.Lab10.System

/-!
Mutual exclusion on the shared message, with SIGINT delivered at any point. No
client looks at the return value of `sem_wait`: a client whose wait is
interrupted enters without having taken the unit, and its later `sem_post` adds
a second one. The law holds on a run exactly as far as no wait is interrupted in
this way.
-/

namespace Unx511.Lab10

open Unx511.Machine Unx511.Posix

namespace Pc

/-- Between `sem_wait(mutex_sem)` and `sem_post(mutex_sem)`. -/
def inCritical : Pc → Bool
  | .inspect _ | .readSrc _ | .readText _ _ | .writeSrc _ | .writeDest _ | .clearText _
  | .writeText _ | .unlock _ => true
  | _ => false

/-- Client 3 writes the first message, without the mutex. -/
def initialises : Pc → Bool
  | .initSrc | .initDest | .initClear | .initText => true
  | _ => false

/-- The next statement reads or writes the shared memory. -/
def accesses : Pc → Bool
  | .unlock _ => false
  | pc => pc.initialises || pc.inCritical

/-- Client 3 has not posted `start_sem` yet. -/
def beforePosts : Pc → Bool
  | .sigaction | .createMutex | .createStart | .shmget | .shmat | .postStart => true
  | pc => pc.initialises

/-- Clients 1 and 2 are past `sem_wait(start_sem)` and still at work. -/
def started : Pc → Bool
  | .shmget | .shmat | .test _ | .lock _ | .sleep _ => true
  | pc => pc.inCritical

/-- The programs that contain the statement. -/
def inProgram (no : ClientNo) : Pc → Prop
  | .openMutex _ | .openStart _ | .waitStart => no ≠ .three
  | .createMutex | .createStart | .initSrc | .initDest | .initClear | .initText
  | .postStart | .postStartAgain => no = .three
  | _ => True

theorem accesses_cases {pc : Pc} (h : pc.accesses = true) :
    pc.initialises = true ∨ pc.inCritical = true := by
  cases pc <;> simp_all [accesses, initialises, inCritical]

theorem started_of_inCritical {pc : Pc} (h : pc.inCritical = true) : pc.started = true := by
  cases pc <;> first | rfl | cases h

theorem initialises_inProgram {no : ClientNo} {pc : Pc} (hprogram : pc.inProgram no)
    (h : pc.initialises = true) : no = .three ∧ pc.beforePosts = true := by
  cases pc <;> first | exact ⟨hprogram, rfl⟩ | cases h

end Pc

theorem forall_update {Q : ClientNo → Pc → Prop} {loc : ClientNo → Pc} {no : ClientNo} {pc : Pc}
    (h : ∀ k, Q k (loc k)) (hpc : Q no pc) : ∀ k, Q k (Function.update loc no pc k) := by
  intro k
  rcases eq_or_ne k no with rfl | hne
  · simpa using hpc
  · simpa [hne] using h k

section Moves

variable {no : ClientNo} {memory memory' : Memory} {pc pc' : Pc}

theorem Moves.inProgram (h : Moves no memory pc pc') (hpc : pc.inProgram no) :
    pc'.inProgram no := by
  cases h <;> first | assumption | trivial

theorem Moves.inCritical (h : Moves no memory pc pc') : pc'.inCritical = pc.inCritical := by
  cases h <;> rfl

theorem Moves.started (h : Moves no memory pc pc') (hpc : pc'.started = true) :
    pc.started = true := by
  cases h <;> first | assumption | rfl

theorem Moves.beforePosts (h : Moves no memory pc pc') (hpc : pc'.beforePosts = true) :
    pc.beforePosts = true := by
  cases h <;> first | assumption | rfl

theorem Stores.inProgram (h : Stores no memory pc pc' memory') (hpc : pc.inProgram no) :
    pc'.inProgram no := by
  cases h <;> exact hpc

theorem Stores.inCritical (h : Stores no memory pc pc' memory') :
    pc'.inCritical = pc.inCritical := by
  cases h <;> rfl

theorem Stores.started (h : Stores no memory pc pc' memory') : pc'.started = pc.started := by
  cases h <;> rfl

theorem Stores.beforePosts (h : Stores no memory pc pc' memory') :
    pc'.beforePosts = pc.beforePosts := by
  cases h <;> rfl

variable {n : Nat}

theorem Completes.inProgram (h : Completes pc pc' n) (hpc : pc.inProgram no) :
    pc'.inProgram no := by
  cases h <;> exact hpc

theorem Completes.inCritical (h : Completes pc pc' n) : pc'.inCritical = pc.inCritical := by
  cases h <;> rfl

theorem Completes.started (h : Completes pc pc' n) : pc'.started = pc.started := by
  cases h <;> rfl

theorem Completes.beforePosts (h : Completes pc pc' n) : pc'.beforePosts = pc.beforePosts := by
  cases h <;> rfl

theorem Posts.three (h : Posts pc pc') (hpc : pc.inProgram no) : no = .three := by
  cases h <;> exact hpc

theorem Posts.inProgram (h : Posts pc pc') (hpc : pc.inProgram no) : pc'.inProgram no := by
  cases h with
  | first => exact hpc
  | second => trivial

theorem Posts.inCritical (h : Posts pc pc') : pc'.inCritical = pc.inCritical := by
  cases h <;> rfl

theorem Posts.not_beforePosts (h : Posts pc pc') : pc'.beforePosts = false := by
  cases h <;> rfl

end Moves

/-- What holds on every run, whatever SIGINT interrupts. -/
structure Setting (s : State) : Prop where
  program : ∀ no, (s.pcs no).inProgram no
  early : ∀ no, no = .three → (s.pcs no).beforePosts = true → s.startPosts = 0
  posted : 0 < s.startSem.value → 0 < s.startPosts

namespace Setting

theorem initial (mutexLinked startLinked keyed : Bool) (memory : Memory) :
    Setting (State.initial mutexLinked startLinked keyed memory) where
  program := fun _ => trivial
  early := fun _ _ _ => rfl
  posted := fun h => absurd h (Nat.lt_irrefl 0)

variable {s t : State} {no : ClientNo} {pc : Pc}

theorem inProgram_at (hset : Setting s) (hpc : s.pcs no = pc) : pc.inProgram no :=
  hpc ▸ hset.program no

/-- A step that does not post `start_sem`. -/
theorem of_update (hset : Setting s) (hpcs : t.pcs = Function.update s.pcs no pc)
    (hprogram : pc.inProgram no)
    (hearly : no = .three → pc.beforePosts = true → (s.pcs no).beforePosts = true)
    (hposts : t.startPosts = s.startPosts) (hstart : t.startSem.value ≤ s.startSem.value) :
    Setting t := by
  refine ⟨?_, ?_, ?_⟩
  · rw [hpcs]
    exact forall_update hset.program hprogram
  · rw [hpcs, hposts]
    exact forall_update (Q := fun k pc => k = .three → pc.beforePosts = true → s.startPosts = 0)
      hset.early fun hno hpc => hset.early no hno (hearly hno hpc)
  · intro hpos
    rw [hposts]
    exact hset.posted (by omega)

theorem startPosts_eq_zero (hset : Setting s) (hpc : s.pcs no = pc) (hno : no = .three)
    (hbefore : pc.beforePosts = true) : s.startPosts = 0 :=
  hset.early no hno (by rw [hpc]; exact hbefore)

theorem effect {a : Action} (hset : Setting s) (h : Effect s a t) : Setting t := by
  cases h with
  | @moves _ no c _ hmoves hclient _ hstart _ hposts _ _ =>
      exact hset.of_update (pcs_of_client hclient) (hmoves.inProgram (hset.program no))
        (fun _ => hmoves.beforePosts) hposts hstart.le
  | createMutex hpc hc =>
      have hthree : _ = ClientNo.three := hset.inProgram_at hpc
      refine hset.of_update (pcs_of_client (s := s) rfl) ?_ ?_ rfl le_rfl
      · rw [hc]
        exact hthree
      · rw [hpc]
        exact fun _ _ => rfl
  | createStart hpc hc =>
      have hthree : _ = ClientNo.three := hset.inProgram_at hpc
      have hzero := hset.startPosts_eq_zero hpc hthree rfl
      have hvalue : s.startSem.value = 0 := by
        by_contra hne
        have hposted := hset.posted (Nat.pos_of_ne_zero hne)
        omega
      refine hset.of_update (pcs_of_client (s := s) rfl) ?_ ?_ rfl ?_
      · rw [hc]
        trivial
      · rw [hpc]
        exact fun _ _ => rfl
      · exact (Semaphore.create_value hvalue).le.trans (Nat.zero_le _)
  | waitStart hpc hwait =>
      have hno : _ ≠ ClientNo.three := hset.inProgram_at hpc
      have hvalue := (Semaphore.wait_value hwait).2
      refine hset.of_update (pcs_of_client (s := s) rfl) trivial ?_ rfl ?_
      · exact fun hthree => absurd hthree hno
      · exact (Nat.le_succ _).trans hvalue.le
  | interruptStart hpc hc =>
      have hno : _ ≠ ClientNo.three := hset.inProgram_at hpc
      refine hset.of_update (pcs_of_client (s := s) rfl) ?_ ?_ rfl le_rfl
      · rw [hc]
        trivial
      · exact fun hthree => absurd hthree hno
  | @postStart no pc hposts =>
      refine ⟨?_, ?_, fun _ => Nat.succ_pos _⟩
      · rw [pcs_of_client (s := s) rfl]
        exact forall_update hset.program (hposts.inProgram (hset.program no))
      · rw [pcs_of_client (s := s) rfl]
        intro k hk hbefore
        have hno : no = .three := hposts.three (hset.program no)
        rw [hk, ← hno, Function.update_self] at hbefore
        rw [hposts.not_beforePosts] at hbefore
        cases hbefore
  | @lock no i sem hpc hwait =>
      exact hset.of_update (pcs_of_client (s := s) rfl) trivial nofun rfl le_rfl
  | interruptLock hpc hc =>
      refine hset.of_update (pcs_of_client (s := s) rfl) ?_ ?_ rfl le_rfl
      · rw [hc]
        trivial
      · rw [hc]
        exact nofun
  | unlock hpc =>
      exact hset.of_update (pcs_of_client (s := s) rfl) trivial nofun rfl le_rfl
  | @stores no _ _ hstores =>
      exact hset.of_update (pcs_of_client (s := s) rfl) (hstores.inProgram (hset.program no))
        (fun _ => hstores.beforePosts ▸ id) rfl le_rfl
  | @completes no _ _ _ hcompletes _ =>
      exact hset.of_update (pcs_of_client (s := s) rfl) (hcompletes.inProgram (hset.program no))
        (fun _ => hcompletes.beforePosts ▸ id) rfl le_rfl
  | prints hpc =>
      exact hset.of_update (pcs_of_client (s := s) rfl) trivial nofun rfl le_rfl

end Setting

/-- At most one client is in the critical section, at most one touches the shared
memory, and clients 1 and 2 do not start before client 3 has posted. -/
structure ExclusionLaw (s : State) : Prop where
  conserved : s.mutexSem.value + holders Pc.inCritical s.pcs = 1
  alone : ∀ no no', (s.pcs no).accesses = true → (s.pcs no').accesses = true → no = no'
  barrier : ∀ no, no ≠ .three → (s.pcs no).started = true → 0 < s.startPosts

namespace ExclusionLaw

variable {s t : State} {a : Action} {no : ClientNo} {pc : Pc}

/-- Client 3 initialises the memory without the mutex, at a time when neither
of the others has started. -/
theorem alone_of (hset : Setting s) (hconserved : Conserved 1 Pc.inCritical s.mutexSem.value s.pcs)
    (hbarrier : ∀ no, no ≠ .three → (s.pcs no).started = true → 0 < s.startPosts)
    (no no' : ClientNo) (hno : (s.pcs no).accesses = true) (hno' : (s.pcs no').accesses = true) :
    no = no' := by
  have hinit : ∀ k j, (s.pcs k).initialises = true → (s.pcs j).inCritical = true → k = j := by
    intro k j hk hj
    obtain ⟨hthree, hbefore⟩ := Pc.initialises_inProgram (hset.program k) hk
    by_contra hne
    have hj3 : j ≠ .three := fun h => hne (hthree.trans h.symm)
    have hpos := hbarrier j hj3 (Pc.started_of_inCritical hj)
    have hzero := hset.early k hthree hbefore
    omega
  rcases Pc.accesses_cases hno with hi | hc <;> rcases Pc.accesses_cases hno' with hi' | hc'
  · have h3 := (Pc.initialises_inProgram (hset.program no) hi).1
    have h3' := (Pc.initialises_inProgram (hset.program no') hi').1
    rw [h3, h3']
  · exact hinit no no' hi hc'
  · exact (hinit no' no hi' hc).symm
  · exact hconserved.alone hc hc'

theorem of_parts (hset : Setting s)
    (hconserved : Conserved 1 Pc.inCritical s.mutexSem.value s.pcs)
    (hbarrier : ∀ no, no ≠ .three → (s.pcs no).started = true → 0 < s.startPosts) :
    ExclusionLaw s :=
  ⟨hconserved, alone_of hset hconserved hbarrier, hbarrier⟩

theorem initial (mutexLinked startLinked keyed : Bool) (memory : Memory) :
    ExclusionLaw (State.initial mutexLinked startLinked keyed memory) := by
  apply of_parts (Setting.initial mutexLinked startLinked keyed memory)
  · rfl
  · intro no _ hstarted
    cases hstarted

/-- The barrier after a step of a client that had started already, or that has
not started before the posts. -/
theorem barrier_update (hlaw : ExclusionLaw s) (hpcs : t.pcs = Function.update s.pcs no pc)
    (hposts : s.startPosts ≤ t.startPosts)
    (hstarted : no ≠ .three → pc.started = true → (s.pcs no).started = true ∨ 0 < t.startPosts) :
    ∀ k, k ≠ .three → (t.pcs k).started = true → 0 < t.startPosts := by
  rw [hpcs]
  apply forall_update (Q := fun k pc => k ≠ .three → pc.started = true → 0 < t.startPosts)
  · intro k hk hpc
    exact (hlaw.barrier k hk hpc).trans_le hposts
  · intro hk hpc
    rcases hstarted hk hpc with hbefore | hnow
    · exact (hlaw.barrier no hk hbefore).trans_le hposts
    · exact hnow

/-- A step that neither enters nor leaves the critical section. -/
theorem of_frame (hlaw : ExclusionLaw s) (hset : Setting t)
    (hpcs : t.pcs = Function.update s.pcs no pc)
    (hvalue : t.mutexSem.value = s.mutexSem.value)
    (hinside : pc.inCritical = (s.pcs no).inCritical)
    (hposts : s.startPosts ≤ t.startPosts)
    (hstarted : no ≠ .three → pc.started = true → (s.pcs no).started = true ∨ 0 < t.startPosts) :
    ExclusionLaw t := by
  have hcons : Conserved 1 Pc.inCritical s.mutexSem.value s.pcs := hlaw.conserved
  apply of_parts hset
  · rw [hvalue, hpcs]
    exact hcons.frame hinside
  · exact hlaw.barrier_update hpcs hposts hstarted

/-- While client 3 creates the mutex nobody has entered, so it is created, or
found, with the value 1. -/
theorem createMutex_value (hlaw : ExclusionLaw s) (hset : Setting s)
    (hpc : s.pcs no = .createMutex) : s.mutexSem.value = 1 := by
  have hcons : Conserved 1 Pc.inCritical s.mutexSem.value s.pcs := hlaw.conserved
  have hthree : no = .three := hset.inProgram_at hpc
  have hzero := hset.startPosts_eq_zero hpc hthree rfl
  apply hcons.value_of_none_inside
  intro k
  rw [← Bool.not_eq_true]
  intro hk
  have hk3 : k ≠ .three := by
    rintro rfl
    rw [← hthree, hpc] at hk
    cases hk
  have hpos := hlaw.barrier k hk3 (Pc.started_of_inCritical hk)
  omega

end ExclusionLaw

/-- SIGINT interrupts no wait for the mutex, and no wait for the start signal
before client 3 has posted it. -/
def WaitsUninterrupted (s : State) (a : Action) : Prop :=
  ∀ no, a = .interrupt no → s.pcs no = .waitStart ∧ 0 < s.startPosts

theorem WaitsUninterrupted.of_plain {s : State} {a : Action}
    (hplain : ∀ no, a ≠ .interrupt no) : WaitsUninterrupted s a :=
  fun no hno => absurd hno (hplain no)

/-- One step keeps the law exactly when it is not such an interrupted wait. -/
theorem exclusion_effect {s t : State} {a : Action} (hset : Setting s) (hlaw : ExclusionLaw s)
    (h : Effect s a t) : ExclusionLaw t ↔ WaitsUninterrupted s a := by
  have hset' := hset.effect h
  have hcons : Conserved 1 Pc.inCritical s.mutexSem.value s.pcs := hlaw.conserved
  have keeps : (∀ no, a ≠ .interrupt no) → ExclusionLaw t →
      (ExclusionLaw t ↔ WaitsUninterrupted s a) := fun hplain ht =>
    iff_of_true ht (.of_plain hplain)
  cases h with
  | moves hmoves hclient hmutex hstart hmemory hposts htrace hplain =>
      apply keeps hplain
      exact hlaw.of_frame hset' (pcs_of_client hclient) hmutex hmoves.inCritical hposts.ge
        fun _ hpc => .inl (hmoves.started hpc)
  | createMutex hpc hc =>
      have hvalue := hlaw.createMutex_value hset hpc
      apply keeps nofun
      refine hlaw.of_frame hset' (pcs_of_client (s := s) rfl) ?_ ?_ le_rfl ?_
      · exact (Semaphore.create_value hvalue).trans hvalue.symm
      · rw [hc, hpc]
        rfl
      · rw [hc]
        exact nofun
  | createStart hpc hc =>
      have hthree : _ = ClientNo.three := hset.inProgram_at hpc
      apply keeps nofun
      refine hlaw.of_frame hset' (pcs_of_client (s := s) rfl) rfl ?_ le_rfl ?_
      · rw [hc, hpc]
        rfl
      · exact fun hno => absurd hthree hno
  | waitStart hpc hwait =>
      have hposted := hset.posted (Semaphore.wait_value hwait).1
      apply keeps nofun
      refine hlaw.of_frame hset' (pcs_of_client (s := s) rfl) rfl ?_ le_rfl ?_
      · rw [hpc]
        rfl
      · exact fun _ _ => .inr hposted
  | @interruptStart no c hpc hc =>
      have hno : no ≠ .three := hset.inProgram_at hpc
      have hpcs := pcs_of_client (s := s) (t := s.setClient no c) rfl
      constructor
      · -- the client has started, so the signal must have been posted
        rintro ht k hk
        cases hk
        refine ⟨hpc, ht.barrier no hno ?_⟩
        rw [hpcs, Function.update_self, hc]
        rfl
      · intro hwaits
        refine hlaw.of_frame hset' hpcs rfl ?_ le_rfl ?_
        · rw [hc, hpc]
          rfl
        · exact fun _ _ => .inr (hwaits no rfl).2
  | @postStart no pc hposts =>
      apply keeps nofun
      refine hlaw.of_frame hset' (pcs_of_client (s := s) rfl) rfl hposts.inCritical
        (Nat.le_succ _) ?_
      exact fun _ _ => .inr (Nat.succ_pos _)
  | @lock no i sem hpc hwait =>
      apply keeps nofun
      have hpcs := pcs_of_client (s := s)
        (t := { s.goto no (.inspect i) with mutexSem := sem }) rfl
      apply ExclusionLaw.of_parts hset'
      · rw [hpcs]
        apply hcons.wait (Semaphore.wait_value hwait).2 _ rfl
        rw [hpc]
        rfl
      · apply hlaw.barrier_update hpcs le_rfl
        rw [hpc]
        exact fun _ _ => .inl rfl
  | @interruptLock no c i hpc hc =>
      have hpcs := pcs_of_client (s := s) (t := s.setClient no c) rfl
      apply iff_of_false
      · intro ht
        apply hcons.not_of_entered (p := no) (l := c.pc)
        · rw [hpc]
          rfl
        · rw [hc]
          rfl
        · exact hpcs ▸ ht.conserved
      · intro hwaits
        have hstart := (hwaits no rfl).1
        rw [hpc] at hstart
        cases hstart
  | @unlock no i hpc =>
      apply keeps nofun
      have hpcs := pcs_of_client (s := s)
        (t := { s.goto no (.sleep i) with mutexSem := s.mutexSem.post }) rfl
      apply ExclusionLaw.of_parts hset'
      · rw [hpcs]
        apply hcons.post _ rfl
        rw [hpc]
        rfl
      · apply hlaw.barrier_update hpcs le_rfl
        rw [hpc]
        exact fun _ _ => .inl rfl
  | stores hstores =>
      apply keeps nofun
      refine hlaw.of_frame hset' (pcs_of_client (s := s) rfl) rfl hstores.inCritical le_rfl ?_
      exact fun _ hpc => .inl (hstores.started ▸ hpc)
  | completes hcompletes hmemory =>
      apply keeps nofun
      refine hlaw.of_frame hset' (pcs_of_client (s := s) rfl) rfl hcompletes.inCritical le_rfl ?_
      exact fun _ hpc => .inl (hcompletes.started ▸ hpc)
  | prints hpc =>
      apply keeps nofun
      refine hlaw.of_frame hset' (pcs_of_client (s := s) rfl) rfl ?_ le_rfl ?_
      · rw [hpc]
        rfl
      · rw [hpc]
        exact fun _ _ => .inl rfl

/-- On every run, for every bound of the loops: the law holds in all states of
the run exactly when SIGINT interrupts no wait as described. -/
theorem exclusion_iff (bound : Nat) (mutexLinked startLinked keyed : Bool) (memory : Memory)
    (as : List Action) :
    StatesMeet (step bound) ExclusionLaw (State.initial mutexLinked startLinked keyed memory) as ↔
      StepsMeet (step bound) WaitsUninterrupted
        (State.initial mutexLinked startLinked keyed memory) as :=
  statesMeet_iff_stepsMeet (P := ExclusionLaw) (I := Setting)
    (fun _ _ _ hset h => hset.effect (step_effect h))
    (fun _ _ _ hset hlaw h => exclusion_effect hset hlaw (step_effect h))
    (Setting.initial mutexLinked startLinked keyed memory)
    (ExclusionLaw.initial mutexLinked startLinked keyed memory) as

/-- Client 3 holds the mutex, client 1 blocks on it, and SIGINT interrupts the
wait of client 1. -/
def interruptedLock : List Action :=
  List.replicate 13 (.run .three) ++ List.replicate 7 (.run .one) ++ [.interrupt .one]

/-- Both are then in the critical section, about to read the memory. -/
theorem two_clients_in_critical :
    ∃ s, run (step 30) (State.initial false false false ⟨0, 0, ""⟩) interruptedLock = some s ∧
      s.mutexSem.value + holders Pc.inCritical s.pcs = 2 ∧
      (s.pcs .one).accesses = true ∧ (s.pcs .three).accesses = true :=
  ⟨_, rfl, by decide, rfl, rfl⟩

end Unx511.Lab10
