import Unx511.Lab9.ReceivePath
import Unx511.Text.Decimal

/-!
Lab 9 as a whole: the clients, their sockets and the server. A client writes the same text
once a second, and TCP hands it to the thread of that client in pieces of any length. What
becomes of the texts is followed from the `write` to the terminal of the server, through its
shutdown, in which a connection goes away with everything that nobody has read from it.
-/

namespace Unx511.Lab9.System

open Unx511.Machine
open Server (bufferSize)

/-- What the format of `sprintf` goes on with behind the process number. -/
def parrot : List Char :=
  ": It's not pining, it's passed on! This parrot is no more! It has ceased to be!\n".toList ++
  "It's expired and gone to meet its maker! This is a late parrot! It's a stiff!\n".toList ++
  "Bereft of life, it rests in peace! If you hadn't nailed it to the perch, it\n".toList ++
  "would be pushing up the daisies!\n".toList ++
  "It's rung down the curtain and joined the choir invisible. This is an ex-parrot!\n".toList

/-- The bytes of `buf` that the client with this process number writes. -/
def text (pid : Nat) : List UInt8 :=
  (Text.decimal pid ++ parrot).map fun c => c.toNat.toUInt8

/-- `texts i` counts what client `i` has written, `stream i` is on the way to its thread, and
`closed i` says that the client has closed its end. -/
structure State where
  server : Server.State
  texts : Nat → Nat
  stream : Nat → List UInt8
  closed : Nat → Bool

def State.initial : State where
  server := .initial
  texts := fun _ => 0
  stream := fun _ => []
  closed := fun _ => false

inductive Action where
  | write (i : Nat)
  | close (i : Nat)
  | server (a : Server.Action)
  deriving DecidableEq, Repr

/-- `main` has closed its descriptor of client `i`, one of `n`, or the process is over. -/
def hasClosed (n i : Nat) : Server.MainPc → Bool
  | .quit k => decide (i < k)
  | .join _ => decide (i < n)
  | .returned | .killed => true
  | _ => false

/-- The connection of client `i` is gone on the side of the server. A `read` that has been
called keeps it until it returns. -/
def released (sv : Server.State) (i : Nat) : Bool :=
  hasClosed sv.threads.length i sv.main &&
    (sv.main.isOver || decide (sv.threads[i]? ≠ some .read))

/-- What nobody has read from a connection is dropped with it. -/
def State.settle (s : State) : State :=
  { s with stream := fun i => if released s.server i then [] else s.stream i }

def serverStep (s : State) (a : Server.Action) : Option State :=
  (Server.step s.server a).map fun t => State.settle { s with server := t }

/-- What client `i` writes to a connection that is gone is lost. -/
def State.write (s : State) (i : Nat) (bytes : List UInt8) : State :=
  State.settle { s with
    texts := Function.update s.texts i (s.texts i + 1)
    stream := Function.update s.stream i (s.stream i ++ bytes) }

/-- One step of a client or of the server, whose `read` takes the oldest bytes of the
stream and returns 0 only at its end. `pid i` is the process number of client `i`. -/
def step (pid : Nat → Nat) (s : State) : Action → Option State
  | .write i => if s.closed i then none else some (s.write i (text (pid i)))
  | .close i => some { s with closed := Function.update s.closed i true }
  | .server (.read i bytes behind) =>
      if bytes <+: s.stream i then
        serverStep
          { s with stream := Function.update s.stream i ((s.stream i).drop bytes.length) }
          (.read i bytes behind)
      else none
  | .server (.readEnd i) =>
      if s.closed i ∧ s.stream i = [] then serverStep s (.readEnd i) else none
  | .server a => serverStep s a

/-- The strings of a client among these. -/
def textsOf (client : Nat) (ms : List Server.Message) : List (List UInt8) :=
  (ms.filter (·.client = client)).map Server.Message.text

def State.printed (s : State) (i : Nat) : List UInt8 := (textsOf i s.server.printed).flatten

/-- In the queue, in the hand of the thread of client `i` and on the way to it. -/
def State.onTheWay (s : State) (i : Nat) : List UInt8 :=
  (textsOf i s.server.queue ++ s.server.inHand i).flatten ++ s.stream i

/-- Of every client, what is printed and, as long as `main` still prints, what is on the way
there makes up the texts it has written, in order. -/
def Lossless (pid : Nat → Nat) (s : State) : Prop :=
  ∀ i, s.printed i ++ (if s.server.main.inLoop then s.onTheWay i else []) =
    (List.replicate (s.texts i) (text (pid i))).flatten

/-- As long as `main` is in its loop, a thread reads less than a buffer, or there is a NUL
behind the buffer. `main` leaves its loop with nothing on the way, and no client writes after
that. -/
def KeepsAll (s : State) : Action → Prop
  | .server (.read _ bytes behind) =>
      s.server.main.inLoop = true → bytes.length < bufferSize ∨ Text.cString 0 behind = []
  | .server .main =>
      s.server.main = .test → s.server.isRunning = false → ∀ i, s.onTheWay i = []
  | .write _ => s.server.main.inLoop = true
  | _ => True

theorem nul_not_mem_parrot : ∀ c ∈ parrot, c.toNat.toUInt8 ≠ 0 := by
  intro c hc
  -- `all` runs over the text; what decides `∀ c` may run over every character there is
  have hall : parrot.all (fun c => c.toNat.toUInt8 != 0) = true := by decide +kernel
  exact bne_iff_ne.mp (List.all_eq_true.mp hall c hc)

theorem nul_not_mem_text (pid : Nat) : 0 ∉ text pid := by
  intro hmem
  obtain ⟨c, hc, hzero⟩ := List.mem_map.mp hmem
  rcases List.mem_append.mp hc with hdigit | hparrot
  · have hlow : 48 ≤ c.toNat := (Char.isDigit_iff_toNat.mp (Text.isDigit_of_mem_decimal hdigit)).1
    have hhigh : c.toNat ≤ 57 := (Char.isDigit_iff_toNat.mp (Text.isDigit_of_mem_decimal hdigit)).2
    have hbyte : c.toNat % 256 = 0 := congrArg UInt8.toNat hzero
    omega
  · exact nul_not_mem_parrot c hparrot hzero

theorem text_ne_nil (pid : Nat) : text pid ≠ [] :=
  List.map_eq_nil_iff.not.mpr (List.append_ne_nil_of_left_ne_nil (Text.decimal_ne_nil pid) _)

/-- As long as `main` is in its loop it has closed nothing. -/
theorem settle_inLoop {s : State} (hin : s.server.main.inLoop = true) : s.settle = s := by
  have hopen (i : Nat) : released s.server i = false := by
    unfold released
    cases hmain : s.server.main with
    | quit k | join k | returned | killed =>
        rw [hmain] at hin
        cases hin
    | _ => rfl
  simp [State.settle, hopen]

theorem mem_settle {s : State} {i : Nat} {byte : UInt8} (h : byte ∈ s.settle.stream i) :
    byte ∈ s.stream i := by
  change byte ∈ (if released s.server i then [] else s.stream i) at h
  split at h
  · exact absurd h List.not_mem_nil
  · exact h

/-- The server keeps its strings, and the sockets carry no NUL. -/
structure Invariant (s : State) : Prop where
  conserved : Server.Conserved s.server
  nul : ∀ i, 0 ∉ s.stream i

theorem invariant_initial : Invariant State.initial := ⟨rfl, fun _ => List.not_mem_nil⟩

theorem Invariant.settle {s : State} (h : Invariant s) : Invariant s.settle :=
  ⟨h.conserved, fun i hmem => h.nul i (mem_settle hmem)⟩

/-- A client's strings as the server model has them. -/
theorem strings_eq {s : Server.State} (h : Server.Conserved s) (i : Nat) :
    s.strings i = textsOf i s.printed ++ textsOf i s.queue ++ s.inHand i := by
  unfold Server.Conserved at h
  rw [Server.State.strings, Server.State.sent, h, List.filter_append, List.map_append]
  rfl

theorem lossless_inLoop {pid : Nat → Nat} {s : State} (h : Invariant s)
    (hin : s.server.main.inLoop = true) :
    Lossless pid s ↔ ∀ i, (s.server.strings i).flatten ++ s.stream i =
      (List.replicate (s.texts i) (text (pid i))).flatten := by
  apply forall_congr'
  intro i
  rw [hin, if_pos rfl, strings_eq h.conserved, State.printed, State.onTheWay]
  simp only [List.flatten_append, List.append_assoc]

theorem lossless_out {pid : Nat → Nat} {s : State} (hout : s.server.main.inLoop = false) :
    Lossless pid s ↔ ∀ i, s.printed i =
      (List.replicate (s.texts i) (text (pid i))).flatten := by
  apply forall_congr'
  intro i
  rw [hout, if_neg Bool.false_ne_true, List.append_nil]

/-- What one step does to the strings and the streams. -/
inductive Effect (pid : Nat → Nat) (s : State) : Action → State → Prop
  | write (i : Nat) : Effect pid s (.write i) (s.write i (text (pid i)))
  | close (i : Nat) : Effect pid s (.close i) { s with
      closed := Function.update s.closed i true }
  | read {i : Nat} {bytes behind rest : List UInt8} {t : Server.State}
      (hstream : s.stream i = bytes ++ rest)
      (hstep : Server.step s.server (.read i bytes behind) = some t) :
      Effect pid s (.server (.read i bytes behind))
        (State.settle { s with server := t, stream := Function.update s.stream i rest })
  | server {a : Server.Action} {t : Server.State} (hread : ∀ i, Server.readsOf i [a] = [])
      (hstep : Server.step s.server a = some t) :
      Effect pid s (.server a) (State.settle { s with server := t })

theorem step_effect {pid : Nat → Nat} {s t : State} {a : Action}
    (h : step pid s a = some t) : Effect pid s a t := by
  unfold step at h
  split at h
  case h_1 i =>
    split at h
    case isTrue => cases h
    case isFalse =>
      cases h
      exact .write i
  case h_2 i =>
    cases h
    exact .close i
  case h_3 i bytes behind =>
    obtain ⟨⟨rest, hrest⟩, h⟩ := Option.ite_none_right_eq_some.mp h
    obtain ⟨u, hstep, rfl⟩ := Option.map_eq_some_iff.mp h
    have hdrop : (s.stream i).drop bytes.length = rest := by
      rw [← hrest]
      exact List.drop_left
    simp only [hdrop]
    exact .read hrest.symm hstep
  case h_4 i =>
    obtain ⟨_, h⟩ := Option.ite_none_right_eq_some.mp h
    obtain ⟨u, hstep, rfl⟩ := Option.map_eq_some_iff.mp h
    exact .server (fun _ => rfl) hstep
  case h_5 a hread _ =>
    obtain ⟨u, hstep, rfl⟩ := Option.map_eq_some_iff.mp h
    cases a with
    | read i bytes behind => exact absurd rfl (hread i bytes behind)
    | _ => exact .server (fun _ => rfl) hstep

theorem invariant_step {pid : Nat → Nat} {s t : State} {a : Action} (h : Invariant s)
    (hstep : step pid s a = some t) : Invariant t := by
  cases step_effect hstep with
  | write i =>
      refine Invariant.settle ⟨h.conserved, fun j => ?_⟩
      rcases eq_or_ne j i with rfl | hne
      · simp only [Function.update_self, List.mem_append, not_or]
        exact ⟨h.nul j, nul_not_mem_text _⟩
      · simp only [Function.update_of_ne hne]
        exact h.nul j
  | close _ => exact ⟨h.conserved, h.nul⟩
  | @read i bytes behind rest u hstream hserver =>
      refine Invariant.settle ⟨Server.conserved_effect h.conserved (Server.step_effect hserver),
        fun j => ?_⟩
      rcases eq_or_ne j i with rfl | hne
      · simp only [Function.update_self]
        have hnul := h.nul j
        rw [hstream] at hnul
        exact fun hmem => hnul (List.mem_append_right _ hmem)
      · simp only [Function.update_of_ne hne]
        exact h.nul j
  | server _ hserver =>
      exact Invariant.settle
        ⟨Server.conserved_effect h.conserved (Server.step_effect hserver), h.nul⟩

/-- The one step out of the loop of `main`. -/
theorem leaves_iff {s t : Server.State} {a : Server.Action} (h : Server.step s a = some t)
    (hin : s.main.inLoop = true) :
    t.main.inLoop = false ↔ a = .main ∧ s.main = .test ∧ s.isRunning = false := by
  cases Server.step_effect h with
  | frame _ _ _ hloop _ =>
      rw [hloop, hin]
      refine iff_of_false nofun ?_
      rintro ⟨rfl, hmain, hstopped⟩
      obtain rfl : { s with main := .quit 0 } = t := by
        simpa [Server.step, Server.mainStep, Server.MainPc.isOver, hmain, hstopped] using h
      rw [hin] at hloop
      cases hloop
  | leave hmain hstopped => exact iff_of_true rfl ⟨rfl, hmain, hstopped⟩
  | print hmain _ =>
      change s.main.inLoop = false ↔ _
      rw [hmain]
      exact iff_of_false nofun nofun
  | push _ =>
      change s.main.inLoop = false ↔ _
      rw [hin]
      exact iff_of_false nofun nofun

/-- Out of its loop, `main` prints nothing and does not come back. -/
theorem stays_out {s t : Server.State} {a : Server.Action} (h : Server.step s a = some t)
    (hout : s.main.inLoop = false) : t.main.inLoop = false ∧ t.printed = s.printed := by
  cases Server.step_effect h with
  | frame _ _ hprinted hloop _ => exact ⟨hloop.trans hout, hprinted⟩
  | leave _ _ => exact ⟨rfl, rfl⟩
  | print hmain _ =>
      rw [hmain] at hout
      cases hout
  | push _ => exact ⟨hout, rfl⟩

/-- The string of a read is what was read exactly when it ends behind the last byte. -/
theorem stringOf_eq_iff {bytes : List UInt8} (hnul : 0 ∉ bytes) (behind : List UInt8) :
    Server.stringOf bytes behind = bytes ↔
      bytes.length < bufferSize ∨ Text.cString 0 behind = [] := by
  by_cases hshort : bytes.length < bufferSize
  · exact ⟨fun _ => .inl hshort, fun _ => Server.stringOf_short hnul hshort behind⟩
  · have hstring : Server.stringOf bytes behind = bytes ++ Text.cString 0 behind := by
      rw [Server.stringOf, if_neg hshort]
      exact Text.cString_append hnul behind
    rw [hstring, List.append_right_eq_self]
    exact ⟨.inr, fun h => h.resolve_left hshort⟩

/-- In the loop of `main`, a read keeps every byte exactly when its string ends in time. -/
theorem lossless_read {pid : Nat → Nat} {s : State} {i : Nat} {bytes behind rest : List UInt8}
    {u : Server.State} (h : Invariant s) (hin : s.server.main.inLoop = true)
    (hlossless : Lossless pid s) (hstream : s.stream i = bytes ++ rest)
    (hserver : Server.step s.server (.read i bytes behind) = some u) :
    Lossless pid
        (State.settle { s with server := u, stream := Function.update s.stream i rest }) ↔
      bytes.length < bufferSize ∨ Text.cString 0 behind = [] := by
  have hnul : 0 ∉ bytes := by
    have hall := h.nul i
    rw [hstream] at hall
    exact fun hmem => hall (List.mem_append_left _ hmem)
  have huin : u.main.inLoop = true := by
    rw [← Bool.not_eq_false, leaves_iff hserver hin]
    nofun
  have hstrings := Server.step_strings hserver
  have hstep : step pid s (.server (.read i bytes behind)) = some (State.settle
      { s with server := u, stream := Function.update s.stream i rest }) := by
    simp [step, serverStep, hserver, hstream]
  have ht := invariant_step h hstep
  rw [lossless_inLoop h hin] at hlossless
  rw [lossless_inLoop ht huin, settle_inLoop huin, ← stringOf_eq_iff hnul]
  have hbefore := hlossless i
  rw [hstream] at hbefore
  constructor
  · -- the bytes before and behind the string of this read are the same on both sides
    intro hafter
    have hi := hafter i
    simp only [Function.update_self] at hi
    rw [hstrings, ← hbefore] at hi
    simpa [Server.readsOf] using hi
  · intro hsame j
    simp only
    rw [hstrings]
    rcases eq_or_ne j i with rfl | hne
    · rw [← hbefore]
      simp [Server.readsOf, hsame]
    · rw [Function.update_of_ne hne, ← hlossless j]
      simp [Server.readsOf, hne.symm]

/-- In the loop of `main`, no other step of the server loses a byte but the one out of the
loop. -/
theorem lossless_server {pid : Nat → Nat} {s : State} {a : Server.Action} {u : Server.State}
    (h : Invariant s) (hin : s.server.main.inLoop = true) (hlossless : Lossless pid s)
    (hread : ∀ i, Server.readsOf i [a] = []) (hserver : Server.step s.server a = some u) :
    Lossless pid (State.settle { s with server := u }) ↔ KeepsAll s (.server a) := by
  cases huin : u.main.inLoop with
  | true =>
      have hstay : ¬ (a = .main ∧ s.server.main = .test ∧ s.server.isRunning = false) := by
        rw [← leaves_iff hserver hin, huin]
        nofun
      have ht : Invariant { s with server := u } :=
        ⟨Server.conserved_effect h.conserved (Server.step_effect hserver), h.nul⟩
      rw [settle_inLoop huin, lossless_inLoop ht huin]
      rw [lossless_inLoop h hin] at hlossless
      refine iff_of_true (fun j => ?_) ?_
      · have hstrings := Server.step_strings hserver j
        rw [hread j, List.map_nil, List.append_nil] at hstrings
        change (u.strings j).flatten ++ _ = _
        rw [hstrings]
        exact hlossless j
      · cases a with
        | main => exact fun hmain hstopped => absurd ⟨rfl, hmain, hstopped⟩ hstay
        | read i bytes behind =>
            have hnone := hread i
            simp [Server.readsOf] at hnone
        | _ => trivial
  | false =>
      obtain ⟨rfl, hmain, hstopped⟩ := (leaves_iff hserver hin).mp huin
      obtain rfl : { s.server with main := .quit 0 } = u := by
        simpa [Server.step, Server.mainStep, Server.MainPc.isOver, hmain, hstopped] using hserver
      rw [lossless_out huin]
      have hkeeps : KeepsAll s (.server .main) ↔ ∀ i, s.onTheWay i = [] :=
        ⟨fun hkeeps => hkeeps hmain hstopped, fun hnone _ _ => hnone⟩
      rw [hkeeps]
      apply forall_congr'
      intro i
      have hi := hlossless i
      rw [hin, if_pos rfl] at hi
      change s.printed i = (List.replicate (s.texts i) (text (pid i))).flatten ↔ _
      rw [← hi]
      exact List.self_eq_append_right

/-- One step keeps every byte exactly when it meets the condition. -/
theorem lossless_step {pid : Nat → Nat} {s t : State} {a : Action} (h : Invariant s)
    (hlossless : Lossless pid s) (hstep : step pid s a = some t) :
    Lossless pid t ↔ KeepsAll s a := by
  have ht : Invariant t := invariant_step h hstep
  cases hin : s.server.main.inLoop with
  | true =>
      cases step_effect hstep with
      | write i =>
          refine iff_of_true ?_ hin
          rw [lossless_inLoop h hin] at hlossless
          have hkept : s.write i (text (pid i)) = { s with
              texts := Function.update s.texts i (s.texts i + 1)
              stream := Function.update s.stream i (s.stream i ++ text (pid i)) } :=
            settle_inLoop hin
          rw [lossless_inLoop ht hin, hkept]
          intro j
          rcases eq_or_ne j i with rfl | hne
          · simp only [Function.update_self]
            rw [← List.append_assoc, hlossless j, List.replicate_succ', List.flatten_append]
            simp
          · simp only [Function.update_of_ne hne]
            exact hlossless j
      | close _ => exact iff_of_true hlossless trivial
      | read hstream hserver =>
          rw [lossless_read h hin hlossless hstream hserver]
          exact ⟨fun hends _ => hends, fun hkeeps => hkeeps hin⟩
      | server hread hserver => exact lossless_server h hin hlossless hread hserver
  | false =>
      rw [lossless_out hin] at hlossless
      cases step_effect hstep with
      | write i =>
          refine iff_of_false ?_ (by rw [KeepsAll, hin]; nofun)
          rw [lossless_out (s := s.write i (text (pid i))) hin]
          intro hafter
          have hi := hafter i
          change s.printed i =
            (List.replicate (Function.update s.texts i (s.texts i + 1) i) _).flatten at hi
          rw [hlossless i, Function.update_self, List.replicate_succ, List.flatten_cons] at hi
          exact text_ne_nil _ (List.self_eq_append_left.mp hi)
      | close _ => exact iff_of_true ((lossless_out hin).mpr hlossless) trivial
      | @read i bytes behind rest u _ hserver =>
          obtain ⟨hout, hprinted⟩ := stays_out hserver hin
          refine iff_of_true ((lossless_out hout).mpr fun j => ?_) fun hloop => ?_
          · change (textsOf j u.printed).flatten = _
            rw [hprinted]
            exact hlossless j
          · rw [hin] at hloop
            cases hloop
      | @server a u hread hserver =>
          obtain ⟨hout, hprinted⟩ := stays_out hserver hin
          refine iff_of_true ((lossless_out hout).mpr fun j => ?_) ?_
          · change (textsOf j u.printed).flatten = _
            rw [hprinted]
            exact hlossless j
          · cases a with
            | main =>
                intro hmain
                rw [hmain] at hin
                cases hin
            | read i bytes behind =>
                have hnone := hread i
                simp [Server.readsOf] at hnone
            | _ => trivial

/-- In every run of the clients and the server, its shutdown included, each byte that a
client has written is at every time printed once, in order, or still on its way there, exactly
when no read fills the buffer of its thread with no NUL behind it, `main` leaves its loop with
nothing on the way, and no client writes after that. -/
theorem end_to_end (pid : Nat → Nat) (acts : List Action) :
    StatesMeet (step pid) (Lossless pid) State.initial acts ↔
      StepsMeet (step pid) KeepsAll State.initial acts :=
  statesMeet_iff_stepsMeet (fun _ _ _ h hstep => invariant_step h hstep)
    (fun _ _ _ h hlossless hstep => lossless_step h hlossless hstep) invariant_initial
    (fun _ => rfl) acts

end Unx511.Lab9.System
