import Unx511.ClientNo
import Unx511.Machine.Run
import Unx511.Posix.Semaphore

/-!
The Lab 10 system: three clients that take turns on one shared message, with a
mutex semaphore around it and a start semaphore that client 3 posts once the
message is initialised. `client1.cpp` and `client2.cpp` differ in their number
and in the destinations of their replies, `client3.cpp` also in the setup.

A client starts at its call of `sigaction`. The name of a semaphore can be left
over from an earlier run, and so can the segment with whatever is in it.
-/

namespace Unx511.Lab10

open Unx511.Machine Unx511.Posix

/-- The fields of the shared segment that the clients use. -/
structure Memory where
  srcClientNo : Nat
  destClientNo : Nat
  message : String
  deriving DecidableEq, Repr

/-- The statement a client is at, with the locals that later statements use. Clients 1 and 2
try to open the semaphores again and again; client 3 creates them and the first message.
`waitStart` is `sem_wait(start_sem)`, `lock` and `unlock` are those of `mutex_sem`, and
`inspect` tests `destClientNo`. At `detach` begins `cleanup_clients`, which `exit` runs. -/
inductive Pc where
  | sigaction
  | openMutex (retries : Nat)
  | openStart (retries : Nat)
  | waitStart
  | createMutex
  | createStart
  | shmget
  | shmat
  | initSrc
  | initDest
  | initClear
  | initText
  | postStart
  | postStartAgain
  | test (i : Nat)
  | lock (i : Nat)
  | inspect (i : Nat)
  | readSrc (i : Nat)
  | readText (i src : Nat)
  | writeSrc (i : Nat)
  | writeDest (i : Nat)
  | clearText (i : Nat)
  | writeText (i : Nat)
  | unlock (i : Nat)
  | sleep (i : Nat)
  | detach
  | unlinkMutex
  | unlinkStart
  | exited
  deriving DecidableEq, Repr

/-- `mutexOpen` is `mutex_sem != SEM_FAILED`, and so on; `attached` says that `ShmPTR` is a
segment. -/
structure Client where
  pc : Pc
  isRunning : Bool
  mutexOpen : Bool
  startOpen : Bool
  attached : Bool
  deriving DecidableEq, Repr

def Client.initial : Client where
  pc := .sigaction
  isRunning := true
  mutexOpen := false
  startOpen := false
  attached := false

/-- What the clients print and write, for the history of a run. -/
inductive Event where
  | wrote (no : ClientNo) (m : Memory)
  | printed (no : ClientNo) (src : Nat) (message : String)
  deriving DecidableEq, Repr

/-- `keyed` says that `shmget` finds the segment. `startPosts` and `trace` are histories: the
posts of `start_sem`, and the events. -/
structure State where
  mutexSem : Semaphore
  startSem : Semaphore
  keyed : Bool
  memory : Memory
  client : ClientNo → Client
  startPosts : Nat
  trace : List Event

/-- Where each client is. -/
def State.pcs (s : State) (no : ClientNo) : Pc := (s.client no).pc

/-- Fresh semaphores, whether or not their names and the segment exist. -/
def State.initial (mutexLinked startLinked keyed : Bool) (memory : Memory) : State where
  mutexSem := { linked := mutexLinked, value := 1 }
  startSem := { linked := startLinked, value := 0 }
  keyed := keyed
  memory := memory
  client := fun _ => Client.initial
  startPosts := 0
  trace := []

def State.setClient (s : State) (no : ClientNo) (c : Client) : State :=
  { s with client := Function.update s.client no c }

def State.goto (s : State) (no : ClientNo) (pc : Pc) : State :=
  s.setClient no { s.client no with pc := pc }

/-- `"This is message %d from client %d"` -/
def messageText (n : Nat) (no : ClientNo) : String :=
  "This is message " ++ toString n ++ " from client " ++ toString no.val

/-- The destination of the reply that client `no` writes in iteration `i`. -/
def replyDest : ClientNo → Nat → Nat
  | .one, i => 2 + i % 2
  | .two, i => 1 + 2 * (i % 2)
  | .three, i => 1 + i % 2

/-- The statements in front of the loop. -/
def setupStep (no : ClientNo) (s : State) : Pc → Option State
  | .sigaction => some (s.goto no (if no = .three then .createMutex else .openMutex 10))
  | .openMutex 0 => some (s.goto no .detach)
  | .openMutex (retries + 1) =>
      if s.mutexSem.linked then
        some (s.setClient no { s.client no with mutexOpen := true, pc := .openStart 10 })
      else some (s.goto no (.openMutex retries))
  | .openStart 0 => some (s.goto no .detach)
  | .openStart (retries + 1) =>
      if s.startSem.linked then
        some (s.setClient no { s.client no with startOpen := true, pc := .waitStart })
      else some (s.goto no (.openStart retries))
  | .waitStart => s.startSem.wait.map fun sem => { s.goto no .shmget with startSem := sem }
  | .createMutex =>
      some { s.setClient no { s.client no with mutexOpen := true, pc := .createStart } with
        mutexSem := s.mutexSem.create 1 }
  | .createStart =>
      some { s.setClient no { s.client no with startOpen := true, pc := .shmget } with
        startSem := s.startSem.create 0 }
  | .shmget =>
      if no = .three then some { s.goto no .shmat with keyed := true }
      else some (s.goto no (if s.keyed then .shmat else .detach))
  | .shmat =>
      some (s.setClient no { s.client no with
        attached := true, pc := if no = .three then .initSrc else .test 0 })
  | .initSrc => some { s.goto no .initDest with memory.srcClientNo := no.val }
  | .initDest => some { s.goto no .initClear with memory.destClientNo := 1 }
  | .initClear => some { s.goto no .initText with memory.message := "" }
  | .initText =>
      let memory := { s.memory with message := messageText 0 no }
      some { s.goto no .postStart with
        memory := memory, trace := s.trace ++ [.wrote no memory] }
  | .postStart =>
      some { s.goto no .postStartAgain with
        startSem := s.startSem.post, startPosts := s.startPosts + 1 }
  | .postStartAgain =>
      some { s.goto no (.test 0) with
        startSem := s.startSem.post, startPosts := s.startPosts + 1 }
  | _ => none

/-- The loop, with `bound` for `NUM_MESSAGES`. -/
def loopStep (bound : Nat) (no : ClientNo) (s : State) : Pc → Option State
  | .test i =>
      some (s.goto no (if i < bound ∧ (s.client no).isRunning then .lock i else .detach))
  | .lock i => s.mutexSem.wait.map fun sem => { s.goto no (.inspect i) with mutexSem := sem }
  | .inspect i =>
      some (s.goto no (if s.memory.destClientNo = no.val then .readSrc i else .unlock i))
  | .readSrc i => some (s.goto no (.readText i s.memory.srcClientNo))
  | .readText i src =>
      some { s.goto no (.writeSrc i) with
        trace := s.trace ++ [.printed no src s.memory.message] }
  | .writeSrc i => some { s.goto no (.writeDest i) with memory.srcClientNo := no.val }
  | .writeDest i => some { s.goto no (.clearText i) with memory.destClientNo := replyDest no i }
  | .clearText i => some { s.goto no (.writeText i) with memory.message := "" }
  | .writeText i =>
      let memory := { s.memory with message := messageText (i + 1) no }
      some { s.goto no (.unlock i) with
        memory := memory, trace := s.trace ++ [.wrote no memory] }
  | .unlock i => some { s.goto no (.sleep i) with mutexSem := s.mutexSem.post }
  | .sleep i => some (s.goto no (.test (i + 1)))
  | _ => none

/-- `cleanup_clients`. Clients 1 and 2 only close what they have open; client 3
also removes the segment and the names. -/
def cleanupStep (no : ClientNo) (s : State) : Pc → Option State
  | .detach =>
      if no = .three then
        some { s.goto no .unlinkMutex with
          keyed := if (s.client no).attached then false else s.keyed }
      else some (s.goto no .exited)
  | .unlinkMutex =>
      some { s.goto no .unlinkStart with
        mutexSem := if (s.client no).mutexOpen then s.mutexSem.unlink else s.mutexSem }
  | .unlinkStart =>
      some { s.goto no .exited with
        startSem := if (s.client no).startOpen then s.startSem.unlink else s.startSem }
  | _ => none

/-- Client `no` runs its next statement. -/
def clientStep (bound : Nat) (no : ClientNo) (s : State) : Option State :=
  let pc := s.pcs no
  (setupStep no s pc).or ((loopStep bound no s pc).or (cleanupStep no s pc))

/-- The system call at this point fails: clients 1 and 2 try `sem_open` again,
and any other failure makes `main` return. -/
def failingCall : Pc → Option Pc
  | .openMutex (retries + 1) => some (.openMutex retries)
  | .openStart (retries + 1) => some (.openStart retries)
  | .createMutex | .createStart | .shmget | .shmat => some .detach
  | _ => none

def handler (c : Client) : Client := { c with isRunning := false }

/-- SIGINT ends a `sem_wait`, whose return value no client looks at. -/
def interruptedWait : Pc → Option Pc
  | .waitStart => some .shmget
  | .lock i => some (.inspect i)
  | _ => none

/-- At `interrupt` the handler runs and `sem_wait` returns -1 with EINTR. -/
inductive Action where
  | run (no : ClientNo)
  | fails (no : ClientNo)
  | sigint (no : ClientNo)
  | interrupt (no : ClientNo)
  deriving DecidableEq, Repr

def Action.isSigint : Action → Bool
  | .run _ | .fails _ => false
  | .sigint _ | .interrupt _ => true

def step (bound : Nat) (s : State) : Action → Option State
  | .run no => clientStep bound no s
  | .fails no => (failingCall (s.pcs no)).map (s.goto no)
  | .sigint no =>
      match s.pcs no with
      | .exited => none
      -- the default action, before the handler is installed
      | .sigaction => some (s.goto no .exited)
      | _ => some (s.setClient no (handler (s.client no)))
  | .interrupt no =>
      (interruptedWait (s.pcs no)).map fun pc =>
        s.setClient no { handler (s.client no) with pc := pc }

theorem pcs_of_client {s t : State} {no : ClientNo} {c : Client}
    (h : t.client = Function.update s.client no c) :
    t.pcs = Function.update s.pcs no c.pc := by
  funext k
  unfold State.pcs
  rw [h]
  rcases eq_or_ne k no with rfl | hne
  · simp
  · simp [hne]

/-- Steps that leave the memory, the history and the values of the semaphores
alone: where they take client `no`, given what the memory holds. -/
inductive Moves (no : ClientNo) (memory : Memory) : Pc → Pc → Prop
  | signalled (pc : Pc) : Moves no memory pc pc
  | killed : Moves no memory .sigaction .exited
  | toCreate (h : no = .three) : Moves no memory .sigaction .createMutex
  | toOpen (h : no ≠ .three) : Moves no memory .sigaction (.openMutex 10)
  | retryMutex (r : Nat) : Moves no memory (.openMutex (r + 1)) (.openMutex r)
  | retryStart (r : Nat) : Moves no memory (.openStart (r + 1)) (.openStart r)
  | openedMutex (r : Nat) : Moves no memory (.openMutex (r + 1)) (.openStart 10)
  | openedStart (r : Nat) : Moves no memory (.openStart (r + 1)) .waitStart
  | noMutex : Moves no memory (.openMutex 0) .detach
  | noStart : Moves no memory (.openStart 0) .detach
  | createMutexFailed : Moves no memory .createMutex .detach
  | createStartFailed : Moves no memory .createStart .detach
  | found : Moves no memory .shmget .shmat
  | notFound : Moves no memory .shmget .detach
  | attachedFirst (h : no = .three) : Moves no memory .shmat .initSrc
  | attached (h : no ≠ .three) : Moves no memory .shmat (.test 0)
  | notAttached : Moves no memory .shmat .detach
  | iterate (i : Nat) : Moves no memory (.test i) (.lock i)
  | leave (i : Nat) : Moves no memory (.test i) .detach
  | mine (i : Nat) (h : memory.destClientNo = no.val) : Moves no memory (.inspect i) (.readSrc i)
  | notMine (i : Nat) (h : memory.destClientNo ≠ no.val) : Moves no memory (.inspect i) (.unlock i)
  | readSrc (i : Nat) : Moves no memory (.readSrc i) (.readText i memory.srcClientNo)
  | slept (i : Nat) : Moves no memory (.sleep i) (.test (i + 1))
  | detached : Moves no memory .detach .unlinkMutex
  | closed : Moves no memory .detach .exited
  | unlinkedMutex : Moves no memory .unlinkMutex .unlinkStart
  | unlinkedStart : Moves no memory .unlinkStart .exited

/-- Stores that leave the memory between two messages. -/
inductive Stores (no : ClientNo) (memory : Memory) : Pc → Pc → Memory → Prop
  | initSrc : Stores no memory .initSrc .initDest { memory with srcClientNo := no.val }
  | initDest : Stores no memory .initDest .initClear { memory with destClientNo := 1 }
  | initClear : Stores no memory .initClear .initText { memory with message := "" }
  | writeSrc (i : Nat) :
      Stores no memory (.writeSrc i) (.writeDest i) { memory with srcClientNo := no.val }
  | writeDest (i : Nat) :
      Stores no memory (.writeDest i) (.clearText i) { memory with destClientNo := replyDest no i }
  | clearText (i : Nat) :
      Stores no memory (.clearText i) (.writeText i) { memory with message := "" }

/-- The two stores that complete a message, and the number in its text. -/
inductive Completes : Pc → Pc → Nat → Prop
  | first : Completes .initText .postStart 0
  | reply (i : Nat) : Completes (.writeText i) (.unlock i) (i + 1)

inductive Posts : Pc → Pc → Prop
  | first : Posts .postStart .postStartAgain
  | second : Posts .postStartAgain (.test 0)

/-- What one step can do. -/
inductive Effect (s : State) : Action → State → Prop
  | moves {a : Action} {no : ClientNo} {c : Client} {t : State}
      (hmoves : Moves no s.memory (s.pcs no) c.pc)
      (hclient : t.client = Function.update s.client no c)
      (hmutex : t.mutexSem.value = s.mutexSem.value)
      (hstart : t.startSem.value = s.startSem.value)
      (hmemory : t.memory = s.memory)
      (hposts : t.startPosts = s.startPosts)
      (htrace : t.trace = s.trace)
      (hplain : ∀ no, a ≠ .interrupt no) : Effect s a t
  | createMutex {no : ClientNo} {c : Client} (hpc : s.pcs no = .createMutex)
      (hc : c.pc = .createStart) :
      Effect s (.run no) { s.setClient no c with mutexSem := s.mutexSem.create 1 }
  | createStart {no : ClientNo} {c : Client} (hpc : s.pcs no = .createStart)
      (hc : c.pc = .shmget) :
      Effect s (.run no) { s.setClient no c with startSem := s.startSem.create 0 }
  | waitStart {no : ClientNo} {sem : Semaphore} (hpc : s.pcs no = .waitStart)
      (hwait : s.startSem.wait = some sem) :
      Effect s (.run no) { s.goto no .shmget with startSem := sem }
  | interruptStart {no : ClientNo} {c : Client} (hpc : s.pcs no = .waitStart)
      (hc : c.pc = .shmget) : Effect s (.interrupt no) (s.setClient no c)
  | postStart {no : ClientNo} {pc : Pc} (hposts : Posts (s.pcs no) pc) :
      Effect s (.run no) { s.goto no pc with
        startSem := s.startSem.post, startPosts := s.startPosts + 1 }
  | lock {no : ClientNo} {i : Nat} {sem : Semaphore} (hpc : s.pcs no = .lock i)
      (hwait : s.mutexSem.wait = some sem) :
      Effect s (.run no) { s.goto no (.inspect i) with mutexSem := sem }
  | interruptLock {no : ClientNo} {c : Client} {i : Nat} (hpc : s.pcs no = .lock i)
      (hc : c.pc = .inspect i) : Effect s (.interrupt no) (s.setClient no c)
  | unlock {no : ClientNo} {i : Nat} (hpc : s.pcs no = .unlock i) :
      Effect s (.run no) { s.goto no (.sleep i) with mutexSem := s.mutexSem.post }
  | stores {no : ClientNo} {pc : Pc} {memory : Memory}
      (hstores : Stores no s.memory (s.pcs no) pc memory) :
      Effect s (.run no) { s.goto no pc with memory := memory }
  | completes {no : ClientNo} {pc : Pc} {n : Nat} {memory : Memory}
      (hcompletes : Completes (s.pcs no) pc n)
      (hmemory : memory = { s.memory with message := messageText n no }) :
      Effect s (.run no) { s.goto no pc with
        memory := memory, trace := s.trace ++ [.wrote no memory] }
  | prints {no : ClientNo} {i src : Nat} (hpc : s.pcs no = .readText i src) :
      Effect s (.run no) { s.goto no (.writeSrc i) with
        trace := s.trace ++ [.printed no src s.memory.message] }

theorem Effect.goto {s : State} {a : Action} {no : ClientNo} {pc : Pc}
    (hmoves : Moves no s.memory (s.pcs no) pc) (hplain : ∀ no, a ≠ .interrupt no) :
    Effect s a (s.goto no pc) :=
  .moves hmoves rfl rfl rfl rfl rfl rfl hplain

theorem setupStep_effect {no : ClientNo} {s t : State} {pc : Pc}
    (hpc : s.pcs no = pc) (h : setupStep no s pc = some t) : Effect s (.run no) t := by
  have hplain : ∀ no', Action.run no ≠ .interrupt no' := nofun
  cases pc with
  | sigaction =>
      cases h
      apply Effect.goto _ hplain
      rw [hpc]
      split
      case isTrue hthree => exact .toCreate hthree
      case isFalse hthree => exact .toOpen hthree
  | openMutex retries =>
      cases retries with
      | zero =>
          cases h
          exact Effect.goto (hpc ▸ .noMutex) hplain
      | succ retries =>
          simp only [setupStep] at h
          split at h <;> cases h
          · exact .moves (hpc ▸ .openedMutex retries) rfl rfl rfl rfl rfl rfl hplain
          · exact Effect.goto (hpc ▸ .retryMutex retries) hplain
  | openStart retries =>
      cases retries with
      | zero =>
          cases h
          exact Effect.goto (hpc ▸ .noStart) hplain
      | succ retries =>
          simp only [setupStep] at h
          split at h <;> cases h
          · exact .moves (hpc ▸ .openedStart retries) rfl rfl rfl rfl rfl rfl hplain
          · exact Effect.goto (hpc ▸ .retryStart retries) hplain
  | waitStart =>
      obtain ⟨sem, hwait, rfl⟩ := Option.map_eq_some_iff.mp h
      exact .waitStart hpc hwait
  | createMutex =>
      cases h
      exact .createMutex hpc rfl
  | createStart =>
      cases h
      exact .createStart hpc rfl
  | shmget =>
      simp only [setupStep] at h
      split at h <;> cases h
      · exact .moves (hpc ▸ .found) rfl rfl rfl rfl rfl rfl hplain
      · apply Effect.goto _ hplain
        rw [hpc]
        split
        · exact .found
        · exact .notFound
  | shmat =>
      cases h
      refine .moves ?_ rfl rfl rfl rfl rfl rfl hplain
      rw [hpc]
      change Moves no s.memory .shmat (if no = .three then .initSrc else .test 0)
      split
      case isTrue hthree => exact .attachedFirst hthree
      case isFalse hthree => exact .attached hthree
  | initSrc | initDest | initClear =>
      cases h
      exact .stores (hpc ▸ by constructor)
  | initText =>
      cases h
      exact .completes (hpc ▸ .first) rfl
  | postStart | postStartAgain =>
      cases h
      exact .postStart (hpc ▸ by constructor)
  | _ => cases h

theorem loopStep_effect {bound : Nat} {no : ClientNo} {s t : State} {pc : Pc}
    (hpc : s.pcs no = pc) (h : loopStep bound no s pc = some t) :
    Effect s (.run no) t := by
  have hplain : ∀ no', Action.run no ≠ .interrupt no' := nofun
  cases pc with
  | test i =>
      cases h
      apply Effect.goto _ hplain
      rw [hpc]
      split
      · exact .iterate i
      · exact .leave i
  | lock i =>
      obtain ⟨sem, hwait, rfl⟩ := Option.map_eq_some_iff.mp h
      exact .lock hpc hwait
  | inspect i =>
      cases h
      apply Effect.goto _ hplain
      rw [hpc]
      split
      case isTrue hmine => exact .mine i hmine
      case isFalse hmine => exact .notMine i hmine
  | readSrc i =>
      cases h
      exact Effect.goto (hpc ▸ .readSrc i) hplain
  | readText i src =>
      cases h
      exact .prints hpc
  | writeSrc i | writeDest i | clearText i =>
      cases h
      exact .stores (hpc ▸ by constructor)
  | writeText i =>
      cases h
      exact .completes (hpc ▸ .reply i) rfl
  | unlock i =>
      cases h
      exact .unlock hpc
  | sleep i =>
      cases h
      exact Effect.goto (hpc ▸ .slept i) hplain
  | _ => cases h

theorem cleanupStep_effect {no : ClientNo} {s t : State} {pc : Pc}
    (hpc : s.pcs no = pc) (h : cleanupStep no s pc = some t) :
    Effect s (.run no) t := by
  have hplain : ∀ no', Action.run no ≠ .interrupt no' := nofun
  cases pc with
  | detach =>
      simp only [cleanupStep] at h
      split at h <;> cases h
      · exact .moves (hpc ▸ .detached) rfl rfl rfl rfl rfl rfl hplain
      · exact Effect.goto (hpc ▸ .closed) hplain
  | unlinkMutex =>
      cases h
      refine .moves (hpc ▸ .unlinkedMutex) rfl ?_ rfl rfl rfl rfl hplain
      change (if _ then s.mutexSem.unlink else s.mutexSem).value = _
      split <;> rfl
  | unlinkStart =>
      cases h
      refine .moves (hpc ▸ .unlinkedStart) rfl rfl ?_ rfl rfl rfl hplain
      change (if _ then s.startSem.unlink else s.startSem).value = _
      split <;> rfl
  | _ => cases h

theorem failingCall_moves {no : ClientNo} {memory : Memory} {pc pc' : Pc}
    (h : failingCall pc = some pc') : Moves no memory pc pc' := by
  cases pc with
  | openMutex retries | openStart retries =>
      cases retries with
      | zero => cases h
      | succ retries =>
          cases h
          constructor
  | createMutex | createStart | shmget | shmat =>
      cases h
      constructor
  | _ => cases h

/-- Every step has one of the effects listed. -/
theorem step_effect {bound : Nat} {s t : State} {a : Action} (h : step bound s a = some t) :
    Effect s a t := by
  cases a with
  | run no =>
      rcases Option.or_eq_some_iff.mp h with hsetup | ⟨_, hrest⟩
      · exact setupStep_effect rfl hsetup
      · rcases Option.or_eq_some_iff.mp hrest with hloop | ⟨_, hcleanup⟩
        · exact loopStep_effect rfl hloop
        · exact cleanupStep_effect rfl hcleanup
  | fails no =>
      obtain ⟨pc, hfail, rfl⟩ := Option.map_eq_some_iff.mp h
      exact Effect.goto (failingCall_moves hfail) nofun
  | sigint no =>
      simp only [step] at h
      split at h
      · cases h
      case h_2 hpc =>
        cases h
        exact Effect.goto (hpc ▸ .killed) nofun
      · cases h
        exact .moves (c := handler (s.client no)) (.signalled _) rfl rfl rfl rfl rfl rfl nofun
  | interrupt no =>
      obtain ⟨pc, hwait, rfl⟩ := Option.map_eq_some_iff.mp h
      cases hpc : s.pcs no with
      | waitStart =>
          rw [hpc] at hwait
          cases hwait
          exact .interruptStart hpc rfl
      | lock i =>
          rw [hpc] at hwait
          cases hwait
          exact .interruptLock hpc rfl
      | _ =>
          rw [hpc] at hwait
          cases hwait

end Unx511.Lab10
