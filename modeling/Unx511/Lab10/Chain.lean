import Unx511.Lab10.Exclusion
import Unx511.Machine.Relay

/-!
Without SIGINT the three clients play a relay on the shared memory: the first
message goes from client 3 to client 1, and each reply is written by the client
the message before it was for. The loop counters only number the replies; they
run on while a client holds no message.
-/

namespace Unx511.Lab10

open Unx511.Machine Unx511.Posix

/-- A message of the exchange; its body is the number in the text. -/
abbrev Message := Letter ClientNo Nat

def toMemory (m : Message) : Memory where
  srcClientNo := m.src.val
  destClientNo := m.dest.val
  message := messageText m.body m.src

/-- How an event of the relay shows in the history. -/
def render : RelayEvent ClientNo Nat → Event
  | .written m => .wrote m.src (toMemory m)
  | .read m => .printed m.dest m.src.val (messageText m.body m.src)

def firstMessage : Message := ⟨.three, .one, 0⟩

/-- The relay of the clients: nobody writes to itself, and the numbers of one
sender increase. -/
abbrev Plays : Relay ClientNo Nat → Relay ClientNo Nat → Prop :=
  Relay.Move firstMessage (fun m => m.src ≠ m.dest) (· < ·)

theorem replyDest_valid (no : ClientNo) (i : Nat) :
    ∃ dest : ClientNo, dest.val = replyDest no i ∧ no ≠ dest := by
  have hmod : i % 2 = 0 ∨ i % 2 = 1 := Nat.mod_two_eq_zero_or_one i
  cases no with
  | one =>
      rcases hmod with h | h
      · exact ⟨.two, by simp [replyDest, h, ClientNo.val], nofun⟩
      · exact ⟨.three, by simp [replyDest, h, ClientNo.val], nofun⟩
  | two =>
      rcases hmod with h | h
      · exact ⟨.one, by simp [replyDest, h, ClientNo.val], nofun⟩
      · exact ⟨.three, by simp [replyDest, h, ClientNo.val], nofun⟩
  | three =>
      rcases hmod with h | h
      · exact ⟨.one, by simp [replyDest, h, ClientNo.val], nofun⟩
      · exact ⟨.two, by simp [replyDest, h, ClientNo.val], nofun⟩

namespace Pc

/-- The client has read the message and has not replied yet. -/
def replying : Pc → Bool
  | .writeSrc _ | .writeDest _ | .clearText _ | .writeText _ => true
  | _ => false

/-- The memory holds parts of two messages. -/
def torn : Pc → Bool
  | .writeDest _ | .clearText _ | .writeText _ => true
  | _ => false

/-- The numbers the client has written are below this one. -/
def counter : Pc → Option Nat
  | .test i | .lock i | .inspect i | .readSrc i | .readText i _ | .writeSrc i | .writeDest i
  | .clearText i | .writeText i => some (i + 1)
  | .unlock i | .sleep i => some (i + 2)
  | .postStart | .postStartAgain => some 1
  | .detach | .unlinkMutex | .unlinkStart | .exited => none
  | _ => some 0

end Pc

/-- The last message is for client `no`, and it has been read or not. -/
def LastFor (no : ClientNo) (taken : Bool) (r : Relay ClientNo Nat) : Prop :=
  ∃ ms m, r = ⟨ms ++ [m], taken⟩ ∧ m.dest = no

/-- What client `no` can rely on at each statement. -/
def At (no : ClientNo) (memory : Memory) (r : Relay ClientNo Nat) : Pc → Prop
  | .sigaction | .createMutex | .createStart | .shmget | .shmat =>
      no = .three → r = Relay.empty
  | .initSrc => r = Relay.empty
  | .initDest => r = Relay.empty ∧ memory.srcClientNo = no.val
  | .initClear | .initText =>
      r = Relay.empty ∧ memory.srcClientNo = no.val ∧ memory.destClientNo = 1
  | .postStart | .postStartAgain | .test _ | .lock _ | .sleep _ => r.letters ≠ []
  | .inspect _ | .unlock _ => r.letters ≠ [] ∧ r.taken = false
  | .readSrc _ => LastFor no false r
  | .readText _ src =>
      ∃ ms m, r = ⟨ms ++ [m], false⟩ ∧ m.dest = no ∧ src = m.src.val
  | .writeSrc _ => LastFor no true r
  | .writeDest _ => LastFor no true r ∧ memory.srcClientNo = no.val
  | .clearText i | .writeText i =>
      LastFor no true r ∧ memory.srcClientNo = no.val ∧ memory.destClientNo = replyDest no i
  | _ => True

/-- Every number client `no` has written is below its counter. -/
def Below (no : ClientNo) (r : Relay ClientNo Nat) (pc : Pc) : Prop :=
  ∀ n, pc.counter = some n → ∀ m ∈ r.letters, m.src = no → m.body < n

/-- The state of the system and the relay that it plays. -/
structure Relates (s : State) (r : Relay ClientNo Nat) : Prop where
  setting : Setting s
  law : ExclusionLaw s
  trace : s.trace = r.log.map render
  posts : 0 < s.startPosts → r.letters ≠ []
  settled : (∀ no, (s.pcs no).torn = false) → ∀ m ∈ r.letters.getLast?, s.memory = toMemory m
  taken : r.taken = true → ∃ no, (s.pcs no).replying = true
  position : ∀ no, At no s.memory r (s.pcs no)
  numbers : ∀ no, Below no r (s.pcs no)

section Control

variable {no : ClientNo} {memory memory' : Memory} {pc pc' : Pc} {r : Relay ClientNo Nat}

theorem Pc.inCritical_of_replying (h : pc.replying = true) : pc.inCritical = true := by
  cases pc <;> first | rfl | cases h

theorem Pc.replying_of_torn (h : pc.torn = true) : pc.replying = true := by
  cases pc <;> first | rfl | cases h

/-- A step of the control flow neither starts nor ends a reply and never lowers
the counter. -/
structure Follows (pc pc' : Pc) : Prop where
  replying : pc'.replying = pc.replying
  torn : pc'.torn = pc.torn
  counter : ∀ n, pc'.counter = some n → ∃ n', pc.counter = some n' ∧ n' ≤ n

theorem Follows.of_counter_eq (hreplying : pc'.replying = pc.replying)
    (htorn : pc'.torn = pc.torn) (hcounter : pc'.counter = pc.counter) : Follows pc pc' :=
  ⟨hreplying, htorn, fun n hn => ⟨n, hcounter ▸ hn, le_rfl⟩⟩

theorem Moves.follows (h : Moves no memory pc pc') : Follows pc pc' := by
  refine ⟨?_, ?_, fun n hn => ?_⟩
  · cases h <;> rfl
  · cases h <;> rfl
  · cases h <;> first
      | exact ⟨n, hn, le_rfl⟩
      | (cases hn; exact ⟨_, rfl, by omega⟩)
      | cases hn

theorem Posts.follows (h : Posts pc pc') : Follows pc pc' := by
  cases h <;> exact .of_counter_eq rfl rfl rfl

/-- A client outside the critical section relies only on whether there is a
message yet. -/
theorem At.frame {r' : Relay ClientNo Nat} (h : At no memory r pc)
    (hcritical : pc.inCritical = false) (hinit : pc.initialises = false)
    (hletters : r.letters ≠ [] → r'.letters ≠ [])
    (hempty : no = .three → r = Relay.empty → r' = Relay.empty) : At no memory' r' pc := by
  cases pc with
  | sigaction | createMutex | createStart | shmget | shmat =>
      exact fun hno => hempty hno (h hno)
  | postStart | postStartAgain | test i | lock i | sleep i => exact hletters h
  | openMutex | openStart | waitStart | detach | unlinkMutex | unlinkStart | exited => trivial
  | initSrc | initDest | initClear | initText => cases hinit
  | _ => cases hcritical

theorem LastFor.letters_ne_nil {taken : Bool} (h : LastFor no taken r) : r.letters ≠ [] := by
  obtain ⟨ms, m, rfl, _⟩ := h
  simp

theorem At.letters_ne_nil (h : At no memory r pc) (hpc : pc.inCritical = true) :
    r.letters ≠ [] := by
  cases pc with
  | inspect i | unlock i => exact h.1
  | readSrc i | writeSrc i => exact LastFor.letters_ne_nil h
  | readText i src =>
      obtain ⟨ms, m, rfl, _⟩ := h
      simp
  | writeDest i | clearText i | writeText i => exact LastFor.letters_ne_nil h.1
  | _ => cases hpc

theorem update_same {β : Type*} (f : Pc → β) {loc : ClientNo → Pc} (h : f pc = f (loc no))
    (k : ClientNo) : f (Function.update loc no pc k) = f (loc k) := by
  rcases eq_or_ne k no with rfl | hne
  · rw [Function.update_self, h]
  · rw [Function.update_of_ne hne]

end Control

namespace Relates

variable {s t : State} {r q : Relay ClientNo Nat} {no : ClientNo} {pc : Pc}

theorem critical_alone (h : Relates s r) {k : ClientNo} (hno : (s.pcs no).inCritical = true)
    (hk : (s.pcs k).inCritical = true) : k = no := by
  have hcons : Conserved 1 Pc.inCritical s.mutexSem.value s.pcs := h.law.conserved
  exact hcons.alone hk hno

/-- While one client accesses the memory no other one is near it. -/
theorem others_outside (h : Relates s r) (hno : (s.pcs no).accesses = true) {k : ClientNo}
    (hk : k ≠ no) : (s.pcs k).inCritical = false ∧ (s.pcs k).initialises = false := by
  have haccess : ∀ pc : Pc, pc.initialises = true → pc.accesses = true := by
    intro pc hpc
    cases pc <;> first | rfl | cases hpc
  constructor
  · rw [← Bool.not_eq_true]
    intro hc
    rcases Pc.accesses_cases hno with hi | hc'
    · obtain ⟨hthree, hbefore⟩ := Pc.initialises_inProgram (h.setting.program no) hi
      have hpos := h.law.barrier k (fun hk3 => hk (hk3.trans hthree.symm))
        (Pc.started_of_inCritical hc)
      have hzero := h.setting.early no hthree hbefore
      omega
    · exact hk (h.critical_alone hc' hc)
  · rw [← Bool.not_eq_true]
    intro hi
    exact hk (h.law.alone k no (haccess _ hi) hno)

/-- What the memory holds for a client that has it to itself. -/
theorem memory_eq (h : Relates s r) (hno : (s.pcs no).inCritical = true)
    (htorn : (s.pcs no).torn = false) : ∀ m ∈ r.letters.getLast?, s.memory = toMemory m := by
  apply h.settled
  intro k
  rcases eq_or_ne k no with rfl | hne
  · exact htorn
  · rw [← Bool.not_eq_true]
    intro hk
    exact hne (h.critical_alone hno (Pc.inCritical_of_replying (Pc.replying_of_torn hk)))

/-- A step that leaves the memory, the history and the relay alone. -/
theorem of_control (h : Relates s r) (hset : Setting t) (hlaw : ExclusionLaw t)
    (hpcs : t.pcs = Function.update s.pcs no pc) (hmemory : t.memory = s.memory)
    (htrace : t.trace = s.trace) (hposts : 0 < t.startPosts → r.letters ≠ [])
    (hfollows : Follows (s.pcs no) pc) (hat : At no s.memory r pc) : Relates t r := by
  refine ⟨hset, hlaw, htrace.trans h.trace, hposts, ?_, ?_, ?_, ?_⟩
  · rw [hpcs, hmemory]
    intro hwhole
    exact h.settled fun k => (update_same Pc.torn hfollows.torn k).symm.trans (hwhole k)
  · intro htaken
    obtain ⟨k, hk⟩ := h.taken htaken
    refine ⟨k, ?_⟩
    rw [hpcs, update_same Pc.replying hfollows.replying]
    exact hk
  · rw [hpcs, hmemory]
    exact forall_update h.position hat
  · rw [hpcs]
    apply forall_update (Q := fun k pc => Below k r pc) h.numbers
    intro n hn m hm hsrc
    obtain ⟨n', hn', hle⟩ := hfollows.counter n hn
    exact (h.numbers no n' hn' m hm hsrc).trans_le hle

/-- A step of a client that accesses the memory. -/
theorem of_access (h : Relates s r) (haccess : (s.pcs no).accesses = true) (hset : Setting t)
    (hlaw : ExclusionLaw t) (hpcs : t.pcs = Function.update s.pcs no pc)
    (htrace : t.trace = q.log.map render) (hposts : t.startPosts = s.startPosts)
    (hletters : r.letters ≠ [] → q.letters ≠ [])
    (hempty : no ≠ .three → r = Relay.empty → q = Relay.empty)
    (hsettled : pc.torn = false → ∀ m ∈ q.letters.getLast?, t.memory = toMemory m)
    (htaken : q.taken = true → pc.replying = true) (hat : At no t.memory q pc)
    (hnew : ∀ m ∈ q.letters, m ∈ r.letters ∨ m.src = no) (hbelow : Below no q pc) :
    Relates t q := by
  refine ⟨hset, hlaw, htrace, ?_, ?_, ?_, ?_, ?_⟩
  · rw [hposts]
    exact fun hpos => hletters (h.posts hpos)
  · intro hwhole
    apply hsettled
    have hno := hwhole no
    rwa [hpcs, Function.update_self] at hno
  · intro htake
    refine ⟨no, ?_⟩
    rw [hpcs, Function.update_self]
    exact htaken htake
  · intro k
    rw [hpcs]
    rcases eq_or_ne k no with rfl | hne
    · rw [Function.update_self]
      exact hat
    · rw [Function.update_of_ne hne]
      obtain ⟨hcritical, hinit⟩ := h.others_outside haccess hne
      apply (h.position k).frame hcritical hinit hletters
      rintro rfl
      exact hempty hne.symm
  · intro k
    rw [hpcs]
    rcases eq_or_ne k no with rfl | hne
    · rw [Function.update_self]
      exact hbelow
    · rw [Function.update_of_ne hne]
      intro n hn m hm hsrc
      rcases hnew m hm with hold | hno
      · exact h.numbers k n hn m hold hsrc
      · exact absurd (hsrc.symm.trans hno) hne

/-- What a control step gives the client to rely on. -/
theorem position_moves (h : Relates s r) (hmoves : Moves no s.memory (s.pcs no) pc) :
    At no s.memory r pc := by
  have hat := h.position no
  have hstarted : no ≠ .three → (s.pcs no).started = true → r.letters ≠ [] := fun hno hs =>
    h.posts (h.law.barrier no hno hs)
  have hmemory : (s.pcs no).inCritical = true → (s.pcs no).torn = false →
      ∀ m ∈ r.letters.getLast?, s.memory = toMemory m := h.memory_eq
  generalize s.pcs no = at0 at *
  cases hmoves with
  | signalled => exact hat
  | toCreate | found => exact hat
  | attachedFirst hthree => exact hat hthree
  | attached hno => exact hstarted hno rfl
  | iterate i | slept i | notMine i hdest => exact hat
  | mine i hdest =>
      obtain ⟨hletters, htaken⟩ := hat
      obtain ⟨ms, m, hms⟩ := (List.eq_nil_or_concat' r.letters).resolve_left hletters
      have hmem := hmemory rfl rfl m (by simp [hms])
      refine ⟨ms, m, ?_, ?_⟩
      · obtain ⟨letters, taken⟩ := r
        simp_all
      · rw [hmem] at hdest
        exact ClientNo.val_inj.mp hdest
  | readSrc i =>
      obtain ⟨ms, m, hr, hdest⟩ := hat
      have hmem := hmemory rfl rfl m (by simp [hr])
      exact ⟨ms, m, hr, hdest, by rw [hmem]; rfl⟩
  | _ => trivial

/-- What a store gives the client to rely on. -/
theorem position_stores {memory : Memory} (h : Relates s r)
    (hstores : Stores no s.memory (s.pcs no) pc memory) : At no memory r pc := by
  have hat := h.position no
  generalize s.pcs no = at0 at *
  cases hstores with
  | initSrc => exact ⟨hat, rfl⟩
  | initDest => exact ⟨hat.1, hat.2, rfl⟩
  | initClear => exact hat
  | writeSrc i => exact ⟨hat, rfl⟩
  | writeDest i => exact ⟨hat.1, hat.2, rfl⟩
  | clearText i => exact hat

/-- After a store the memory is torn, or there is no message yet. -/
theorem settled_stores {memory : Memory} (h : Relates s r)
    (hstores : Stores no s.memory (s.pcs no) pc memory) (htorn : pc.torn = false) :
    r = Relay.empty := by
  have hat := h.position no
  generalize s.pcs no = at0 at *
  cases hstores with
  | initSrc => exact hat
  | initDest | initClear => exact hat.1
  | _ => cases htorn

end Relates

theorem Stores.accesses {no : ClientNo} {memory memory' : Memory} {pc pc' : Pc}
    (h : Stores no memory pc pc' memory') : pc.accesses = true := by
  cases h <;> rfl

theorem Stores.replying {no : ClientNo} {memory memory' : Memory} {pc pc' : Pc}
    (h : Stores no memory pc pc' memory') (hpc : pc.replying = true) : pc'.replying = true := by
  cases h <;> first | rfl | cases hpc

theorem Stores.counter {no : ClientNo} {memory memory' : Memory} {pc pc' : Pc}
    (h : Stores no memory pc pc' memory') : pc'.counter = pc.counter := by
  cases h <;> rfl

def noSigint (_ : State) (a : Action) : Prop := a.isSigint = false

instance (s : State) (a : Action) : Decidable (noSigint s a) :=
  inferInstanceAs (Decidable (a.isSigint = false))

theorem waitsUninterrupted_of_noSigint {s : State} {a : Action} (h : noSigint s a) :
    WaitsUninterrupted s a := by
  rintro no rfl
  cases h

/-- The store that completes a message is a move of the relay: the first one
starts it, the others pass it on. -/
theorem completes_plays {s t : State} {r : Relay ClientNo Nat} {no : ClientNo} {pc : Pc} {n : Nat}
    (h : Relates s r) (hset : Setting t) (hlaw : ExclusionLaw t)
    (hcompletes : Completes (s.pcs no) pc n)
    (hpcs : t.pcs = Function.update s.pcs no pc) (hposts : t.startPosts = s.startPosts)
    (hmemory : t.memory =
      ⟨s.memory.srcClientNo, s.memory.destClientNo, messageText n no⟩)
    (htrace : t.trace = s.trace ++ [.wrote no t.memory]) :
    ∃ r', Plays r r' ∧ Relates t r' := by
  have hat := h.position no
  have hprogram := h.setting.program no
  have hnumbers := h.numbers no
  have hof := fun q haccess => h.of_access (q := q) haccess hset hlaw hpcs
  generalize s.pcs no = at0 at *
  cases hcompletes with
  | first =>
      obtain ⟨hempty, hsrc, hdest⟩ := hat
      have hthree : no = .three := hprogram
      have hmem : t.memory = toMemory firstMessage := by
        rw [hmemory, hsrc, hdest, hthree]
        rfl
      refine ⟨⟨[firstMessage], false⟩, hempty ▸ .start nofun, ?_⟩
      apply hof _ rfl _ hposts
      · exact fun _ => List.cons_ne_nil _ _
      · exact fun hno => absurd hthree hno
      · rintro _ m ⟨⟩
        exact hmem
      · exact nofun
      · exact List.cons_ne_nil _ _
      · intro m hm
        right
        rw [List.mem_singleton.mp hm, hthree]
        rfl
      · rintro k ⟨⟩ m hm _
        rw [List.mem_singleton.mp hm]
        exact Nat.zero_lt_one
      · rw [htrace, h.trace, hempty, hmem, hthree]
        rfl
  | reply i =>
      obtain ⟨⟨ms, m, hr, hto⟩, hsrc, hdest⟩ := hat
      obtain ⟨dest, hreply, hne⟩ := replyDest_valid no i
      let next : Message := ⟨no, dest, i + 1⟩
      have hmem : t.memory = toMemory next := by
        rw [hmemory, hsrc, hdest, ← hreply]
        rfl
      have hbefore : ∀ k ∈ ms ++ [m], k.src = no → k.body < i + 1 := by
        intro k hk
        apply hnumbers (i + 1) rfl k
        rw [hr]
        exact hk
      refine ⟨⟨ms ++ [m] ++ [next], false⟩, hr ▸ .pass ms m next hto.symm hne hbefore, ?_⟩
      apply hof _ rfl _ hposts
      · exact fun _ => by simp
      · rintro _ rfl
        simp [Relay.empty] at hr
      · intro _ k hk
        rw [List.getLast?_concat] at hk
        cases hk
        exact hmem
      · exact nofun
      · exact ⟨by simp, rfl⟩
      · intro k hk
        rw [hr]
        rcases List.mem_append.mp hk with hold | hnew
        · exact .inl hold
        · right
          rw [List.mem_singleton.mp hnew]
      · rintro n ⟨⟩ k hk hk'
        rcases List.mem_append.mp hk with hold | hnew
        · exact (hbefore k hold hk').trans (Nat.lt_succ_self _)
        · rw [List.mem_singleton.mp hnew]
          exact Nat.lt_succ_self _
      · rw [htrace, h.trace, hr, hmem, Relay.log_pass, List.map_append]
        rfl

/-- Every step without SIGINT plays at most one move of the relay. -/
theorem step_plays {s t : State} {r : Relay ClientNo Nat} {a : Action} (h : Relates s r)
    (hplain : noSigint s a) (heffect : Effect s a t) :
    ∃ r', Relation.ReflTransGen Plays r r' ∧ Relates t r' := by
  have hset := h.setting.effect heffect
  have hlaw : ExclusionLaw t :=
    (exclusion_effect h.setting h.law heffect).mpr (waitsUninterrupted_of_noSigint hplain)
  cases heffect with
  | moves hmoves hclient hmutex hstart hmemory hposts htrace _ =>
      refine ⟨r, .refl, ?_⟩
      exact h.of_control hset hlaw (pcs_of_client hclient) hmemory htrace
        (fun hpos => h.posts (hposts ▸ hpos)) hmoves.follows (h.position_moves hmoves)
  | @createMutex no c hpc hc | @createStart no c hpc hc =>
      have hat := h.position no
      refine ⟨r, .refl, h.of_control hset hlaw (pcs_of_client (s := s) rfl) rfl rfl h.posts ?_ ?_⟩
      · rw [hc, hpc]
        exact .of_counter_eq rfl rfl rfl
      · rw [hpc] at hat
        rw [hc]
        exact hat
  | @waitStart no sem hpc hwait =>
      have hno : no ≠ .three := h.setting.inProgram_at hpc
      refine ⟨r, .refl, h.of_control hset hlaw (pcs_of_client (s := s) rfl) rfl rfl h.posts ?_ ?_⟩
      · rw [hpc]
        exact .of_counter_eq rfl rfl rfl
      · exact fun hthree => absurd hthree hno
  | @postStart no pc hposts =>
      have hletters : r.letters ≠ [] := by
        have hat := h.position no
        generalize s.pcs no = at0 at *
        cases hposts <;> exact hat
      refine ⟨r, .refl, h.of_control hset hlaw (pcs_of_client (s := s) rfl) rfl rfl
        (fun _ => hletters) hposts.follows ?_⟩
      generalize s.pcs no = at0 at *
      cases hposts <;> exact hletters
  | @lock no i sem hpc hwait =>
      -- the unit was free, so nobody is in the middle of a reply
      have hfree : r.taken = false := by
        rw [← Bool.not_eq_true]
        intro htaken
        obtain ⟨k, hk⟩ := h.taken htaken
        have hcons : Conserved 1 Pc.inCritical s.mutexSem.value s.pcs := h.law.conserved
        have hpos := (Semaphore.wait_value hwait).1
        have hone : s.mutexSem.value = 1 := by
          unfold Conserved at hcons
          omega
        rw [hone] at hcons
        have hout := hcons.none_inside k
        rw [Pc.inCritical_of_replying hk] at hout
        cases hout
      have hat := h.position no
      refine ⟨r, .refl, h.of_control hset hlaw (pcs_of_client (s := s) rfl) rfl rfl h.posts ?_ ?_⟩
      · rw [hpc]
        exact .of_counter_eq rfl rfl rfl
      · rw [hpc] at hat
        exact ⟨hat, hfree⟩
  | @unlock no i hpc =>
      have hat := h.position no
      refine ⟨r, .refl, h.of_control hset hlaw (pcs_of_client (s := s) rfl) rfl rfl h.posts ?_ ?_⟩
      · rw [hpc]
        exact .of_counter_eq rfl rfl rfl
      · rw [hpc] at hat
        exact hat.1
  | interruptStart | interruptLock => cases hplain
  | @stores no pc memory hstores =>
      refine ⟨r, .refl, ?_⟩
      apply h.of_access hstores.accesses hset hlaw (pcs_of_client (s := s) rfl) h.trace rfl id
        fun _ => id
      · intro htorn m hm
        rw [h.settled_stores hstores htorn] at hm
        cases hm
      · intro htaken
        apply hstores.replying
        obtain ⟨k, hk⟩ := h.taken htaken
        rcases eq_or_ne k no with rfl | hne
        · exact hk
        · have hout := (h.others_outside hstores.accesses hne).1
          rw [Pc.inCritical_of_replying hk] at hout
          cases hout
      · exact h.position_stores hstores
      · exact fun m hm => .inl hm
      · exact fun n hn => h.numbers no n (hstores.counter ▸ hn)
  | @completes no pc n memory hcompletes hmemory =>
      have hpcs : (s.goto no pc).pcs = Function.update s.pcs no pc :=
        pcs_of_client (c := { s.client no with pc := pc }) rfl
      obtain ⟨r', hplays, hrel⟩ := completes_plays h hset hlaw hcompletes hpcs rfl hmemory rfl
      exact ⟨r', .single hplays, hrel⟩
  | @prints no i src hpc =>
      have hat := h.position no
      rw [hpc] at hat
      obtain ⟨ms, m, hr, hdest, hsrc⟩ := hat
      have hcritical : (s.pcs no).inCritical = true := by rw [hpc]; rfl
      have hmem : s.memory = toMemory m := by
        apply h.memory_eq hcritical (by rw [hpc]; rfl)
        simp [hr]
      refine ⟨⟨ms ++ [m], true⟩, .single (hr ▸ .take ms m), ?_⟩
      apply h.of_access (by rw [hpc]; rfl) hset hlaw (pcs_of_client (s := s) rfl) _ rfl
      · exact fun _ => by simp
      · rintro _ rfl
        simp [Relay.empty] at hr
      · intro _ k hk
        rw [List.getLast?_concat] at hk
        cases hk
        exact hmem
      · exact fun _ => rfl
      · exact ⟨ms, m, rfl, hdest⟩
      · intro k hk
        rw [hr]
        exact .inl hk
      · intro n hn k hk
        apply h.numbers no n (by rw [hpc]; exact hn) k
        rw [hr]
        exact hk
      · rw [Relay.log_take, List.map_append, ← hr, ← h.trace, hmem, hsrc, ← hdest]
        rfl

theorem relates_initial (mutexLinked startLinked keyed : Bool) (memory : Memory) :
    Relates (State.initial mutexLinked startLinked keyed memory) Relay.empty where
  setting := Setting.initial mutexLinked startLinked keyed memory
  law := ExclusionLaw.initial mutexLinked startLinked keyed memory
  trace := rfl
  posts := fun h => absurd h (Nat.lt_irrefl 0)
  settled := nofun
  taken := nofun
  position := fun _ _ => rfl
  numbers := nofun

/-- Without SIGINT the system refines the relay. -/
theorem refines_relay {bound : Nat} {mutexLinked startLinked keyed : Bool} {memory : Memory}
    {s : State} (h : Reaches (step bound) noSigint
      (State.initial mutexLinked startLinked keyed memory) s) :
    ∃ r, Relation.ReflTransGen Plays Relay.empty r ∧ Relates s r :=
  h.simulation (relates_initial mutexLinked startLinked keyed memory)
    fun _ _ _ _ hrel hplain hstep => step_plays hrel hplain (step_effect hstep)

/-- The exchange as far as it has come. -/
structure MessageChain (bound : Nat) (s : State) : Prop where
  /-- Clients 1 and 2 start when the first message is complete. -/
  barrier : ∀ no, no ≠ .three → (s.pcs no).started = true →
    s.trace.head? = some (.wrote .three (toMemory firstMessage))
  /-- At every unlock the memory holds one whole message, to another client. -/
  unlock : ∀ no i, s.pcs no = .unlock i →
    ∃ m : Message, s.memory = toMemory m ∧ m.src ≠ m.dest ∧ .wrote m.src s.memory ∈ s.trace
  /-- Once there is a message, only its addressee changes the memory, and the
  last thing that happened is that the addressee read it. -/
  overwrite : ∀ a t, noSigint s a → step bound s a = some t → s.trace ≠ [] →
    t.memory ≠ s.memory → ∃ (m : Message) (front : List Event), a = .run m.dest ∧
      s.trace = front ++
        [.wrote m.src (toMemory m), .printed m.dest m.src.val (messageText m.body m.src)]
  /-- The history is a chain of messages: each but the last is read once, by its
  addressee, who writes the next one; the numbers of one sender increase. -/
  chain : ∃ r : Relay ClientNo Nat, s.trace = r.log.map render ∧
    r.letters.IsChain (fun m next => next.src = m.dest) ∧
    r.letters.Pairwise (fun m later => m.src = later.src → m.body < later.body)

namespace Relates

variable {s t : State} {r : Relay ClientNo Nat} {no : ClientNo} {a : Action}

theorem trace_ne_nil (h : Relates s r) (htrace : s.trace ≠ []) : r ≠ Relay.empty := by
  rintro rfl
  exact htrace h.trace

/-- Only the client that has read the last message stores into the memory. -/
theorem lastFor_of_stores {memory : Memory} {pc : Pc} (h : Relates s r) (hr : r ≠ Relay.empty)
    (hstores : Stores no s.memory (s.pcs no) pc memory) : LastFor no true r := by
  have hat := h.position no
  generalize s.pcs no = at0 at *
  cases hstores with
  | initSrc => exact absurd hat hr
  | initDest | initClear => exact absurd hat.1 hr
  | writeSrc i => exact hat
  | writeDest i | clearText i => exact hat.1

theorem lastFor_of_completes {n : Nat} {pc : Pc} (h : Relates s r) (hr : r ≠ Relay.empty)
    (hcompletes : Completes (s.pcs no) pc n) : LastFor no true r := by
  have hat := h.position no
  generalize s.pcs no = at0 at *
  cases hcompletes with
  | first => exact absurd hat.1 hr
  | reply i => exact hat.1

theorem lastFor_of_memory_ne (h : Relates s r) (hr : r ≠ Relay.empty) (heffect : Effect s a t)
    (hmemory : t.memory ≠ s.memory) : ∃ no, a = .run no ∧ LastFor no true r := by
  cases heffect with
  | moves _ _ _ _ hsame => exact absurd hsame hmemory
  | stores hstores => exact ⟨_, rfl, h.lastFor_of_stores hr hstores⟩
  | completes hcompletes => exact ⟨_, rfl, h.lastFor_of_completes hr hcompletes⟩
  | _ => exact absurd rfl hmemory

theorem messageChain {bound : Nat} (h : Relates s r)
    (hplays : Relation.ReflTransGen Plays Relay.empty r) : MessageChain bound s := by
  have hformed := Relay.wellFormed_of_moves hplays
  refine ⟨?_, ?_, ?_, ⟨r, h.trace, hformed.chain, hformed.ordered⟩⟩
  · intro no hno hstarted
    have hletters := h.posts (h.law.barrier no hno hstarted)
    obtain ⟨letters, taken⟩ := r
    obtain ⟨m, ms, rfl⟩ := List.exists_cons_of_ne_nil hletters
    have hfirst : m = firstMessage := hformed.first m rfl
    rw [h.trace, List.head?_map, Relay.log_head?, hfirst]
    rfl
  · intro no i hpc
    have hcritical : (s.pcs no).inCritical = true := by rw [hpc]; rfl
    have hletters := (h.position no).letters_ne_nil hcritical
    obtain ⟨ms, m, hms⟩ := (List.eq_nil_or_concat' r.letters).resolve_left hletters
    have hmem : m ∈ r.letters := by simp [hms]
    have hmemory := h.memory_eq hcritical (by rw [hpc]; rfl) m (by simp [hms])
    refine ⟨m, hmemory, hformed.valid m hmem, ?_⟩
    rw [h.trace, hmemory]
    exact List.mem_map_of_mem (f := render) (Relay.written_mem_log hmem)
  · intro a t _ hstep htrace hmemory
    have hr := h.trace_ne_nil htrace
    obtain ⟨no, rfl, ms, m, rfl, rfl⟩ := h.lastFor_of_memory_ne hr (step_effect hstep) hmemory
    obtain ⟨front, hfront⟩ := Relay.log_taken_split ms m
    refine ⟨m, front.map render, rfl, ?_⟩
    rw [h.trace, hfront, List.map_append]
    rfl

end Relates

/-- Every run without SIGINT, for every bound of the loops and every schedule,
builds one chain of messages. -/
theorem message_chain {bound : Nat} {mutexLinked startLinked keyed : Bool} {memory : Memory}
    {s : State} (h : Reaches (step bound) noSigint
      (State.initial mutexLinked startLinked keyed memory) s) : MessageChain bound s := by
  obtain ⟨r, hplays, hrel⟩ := refines_relay h
  exact hrel.messageChain hplays

/-- Client 3 starts the exchange, and client 1 answers it. -/
def firstReply : List Action :=
  List.replicate 11 (.run .three) ++ List.replicate 16 (.run .one)

theorem message_chain_first_reply :
    ∃ s, run (step 30) (State.initial false false false ⟨0, 0, ""⟩) firstReply = some s ∧
      MessageChain 30 s ∧
      s.trace = [.wrote .three (toMemory firstMessage), .printed .one 3 (messageText 0 .three),
        .wrote .one (toMemory ⟨.one, .two, 1⟩)] := by
  have hplain : StepsMeet (step 30) noSigint (State.initial false false false ⟨0, 0, ""⟩)
      firstReply := by
    decide
  exact ⟨_, rfl, message_chain (Reaches.of_run firstReply rfl hplain), rfl⟩

end Unx511.Lab10
