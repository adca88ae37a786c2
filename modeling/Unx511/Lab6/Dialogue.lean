import Unx511.Lab6.Client
import Unx511.Machine.Termination

/-!
Lab 6: `server.cpp` and `client.cpp` on the two streams of their connection. A `read`
returns some of the bytes that are there, and neither side looks at how many. The
dialogue takes its course exactly as long as every `read` returns all of them.
-/

namespace Unx511.Lab6

open Text Unx511.Machine

def Request.text : Request → List Char
  | .pid => "Pid".toList
  | .sleep => "Sleep".toList

/-- A `read` clears the buffer first and prints what it holds then. -/
inductive Statement where
  | write (text : List Char)
  | read
  | close
  deriving DecidableEq, Repr

/-- `main` of `server.cpp`, behind `accept`. -/
def serverMain : List Statement :=
  [.write "Pid".toList, .read, .write "Sleep".toList, .read, .write "Quit".toList, .close]

/-- A server that asks for these things in turn. -/
def asking : List Request → List Statement
  | [] => [.write quit, .close]
  | request :: rest => .write request.text :: .read :: asking rest

theorem serverMain_eq_asking : serverMain = asking [.pid, .sleep] := rfl

inductive ServerPc where
  | before (rest : List Statement)
  | overrun
  | killed
  deriving DecidableEq, Repr

inductive ClientPc where
  | read
  | write (text : List Char)
  | close
  | ended
  | overrun
  | killed
  deriving DecidableEq, Repr

def ClientPc.after : Turn → ClientPc
  | .goesOn => .read
  | .answers text => .write text
  | .ends .quit => .close
  | .ends _ => .overrun

/-- `toClient` and `toServer` are written and not read yet; `received` and `commands` are what
the server and the client have printed. -/
structure State where
  server : ServerPc
  client : ClientPc
  toClient : List Char
  toServer : List Char
  received : List (List Char)
  commands : List (List Char)
  deriving DecidableEq, Repr

def State.initial : State where
  server := .before serverMain
  client := .read
  toClient := []
  toServer := []
  received := []
  commands := []

def ServerPc.gone : ServerPc → Bool
  | .before [] | .killed => true
  | _ => false

def ClientPc.gone : ClientPc → Bool
  | .ended | .killed => true
  | _ => false

/-- The bytes of a `read` that returns `n`, or `none` while it blocks. -/
def readBytes (stream : List Char) (peerGone : Bool) (n : Nat) : Option (List Char) :=
  if n = 0 then if stream = [] ∧ peerGone then some [] else none
  else if n ≤ BUF_LEN ∧ n ≤ stream.length then some (stream.take n)
  else none

/-- The next statement, with what its `read` returns. -/
inductive Action where
  | server (n : Nat)
  | client (n : Nat)
  deriving DecidableEq, Repr

def serverStep (n : Nat) (s : State) : Option State :=
  match s.server with
  | .before (.write text :: rest) =>
      -- SIGPIPE ends a server that writes to nobody
      some (if s.client.gone then { s with server := .killed }
        else { s with server := .before rest, toClient := s.toClient ++ text })
  | .before (.read :: rest) =>
      (readBytes s.toServer s.client.gone n).map fun bytes =>
        if '\x00' ∈ buffer bytes then
          { s with
            server := .before rest, toServer := s.toServer.drop n
            received := s.received ++ [cString '\x00' (buffer bytes)] }
        else { s with server := .overrun }
  | .before (.close :: rest) => some { s with server := .before rest }
  | _ => none

def clientStep (pid n : Nat) (s : State) : Option State :=
  match s.client with
  | .read =>
      (readBytes s.toClient s.server.gone n).map fun bytes =>
        { s with
          client := .after (turn pid true (buffer bytes)), toClient := s.toClient.drop n
          commands := s.commands ++ [cString '\x00' (buffer bytes)] }
  | .write text =>
      some (if s.server.gone then { s with client := .killed }
        else { s with client := .read, toServer := s.toServer ++ text })
  | .close => some { s with client := .ended }
  | _ => none

def step (pid : Nat) (s : State) : Action → Option State
  | .server n => serverStep n s
  | .client n => clientStep pid n s

/-- A `read` returns all that is there. -/
def Whole (s : State) : Action → Prop
  | .server n => (∃ rest, s.server = .before (.read :: rest)) → n = s.toServer.length
  | .client n => s.client = .read → n = s.toClient.length

/-- Nothing has been printed that is not in the dialogue. -/
structure OnPlan (pid : Nat) (asked : List Request) (s : State) : Prop where
  received : s.received <+: asked.map (answer pid)
  commands : s.commands <+: asked.map Request.text ++ [quit]

/-- Both have ended, and have printed the dialogue. -/
structure Completed (pid : Nat) (asked : List Request) (s : State) : Prop where
  server : s.server = .before []
  client : s.client = .ended
  received : s.received = asked.map (answer pid)
  commands : s.commands = asked.map Request.text ++ [quit]

/-- Where the dialogue is, and how many statements it still takes. -/
inductive Phase (pid : Nat) (asked : List Request) : Nat → State → Prop
  | ask {done rest : List Request} (h : asked = done ++ rest) :
      Phase pid asked (4 * rest.length + 4)
        ⟨.before (asking rest), .read, [], [], done.map (answer pid), done.map Request.text⟩
  | asked {done rest : List Request} {r : Request} (h : asked = done ++ r :: rest) :
      Phase pid asked (4 * rest.length + 7)
        ⟨.before (.read :: asking rest), .read, r.text, [], done.map (answer pid),
          done.map Request.text⟩
  | answering {done rest : List Request} {r : Request} (h : asked = done ++ r :: rest) :
      Phase pid asked (4 * rest.length + 6)
        ⟨.before (.read :: asking rest), .write (answer pid r), [], [], done.map (answer pid),
          done.map Request.text ++ [r.text]⟩
  | answered {done rest : List Request} {r : Request} (h : asked = done ++ r :: rest) :
      Phase pid asked (4 * rest.length + 5)
        ⟨.before (.read :: asking rest), .read, [], answer pid r, done.map (answer pid),
          done.map Request.text ++ [r.text]⟩
  | quitting (left : List Statement) (h : left = [.close] ∨ left = []) :
      Phase pid asked (left.length + 2)
        ⟨.before left, .read, quit, [], asked.map (answer pid), asked.map Request.text⟩
  | leaving (left : List Statement) (h : left = [.close] ∨ left = []) :
      Phase pid asked (left.length + 1)
        ⟨.before left, .close, [], [], asked.map (answer pid), asked.map Request.text ++ [quit]⟩
  | left (left : List Statement) (h : left = [.close] ∨ left = []) :
      Phase pid asked left.length
        ⟨.before left, .ended, [], [], asked.map (answer pid), asked.map Request.text ++ [quit]⟩

/-! One `read`. -/

theorem readBytes_eq_some {stream bytes : List Char} {peerGone : Bool} {n : Nat}
    (h : readBytes stream peerGone n = some bytes) :
    bytes = stream.take n ∧ n ≤ stream.length ∧ (0 < n ∨ stream = [] ∧ peerGone = true) := by
  unfold readBytes at h
  split at h
  case isTrue hn =>
    obtain ⟨hempty, h⟩ := Option.ite_none_right_eq_some.mp h
    cases h
    subst hn
    exact ⟨rfl, Nat.zero_le _, .inr hempty⟩
  case isFalse hn =>
    obtain ⟨hle, h⟩ := Option.ite_none_right_eq_some.mp h
    cases h
    exact ⟨rfl, hle.2, .inl (Nat.pos_of_ne_zero hn)⟩

theorem readBytes_blocks (n : Nat) : readBytes [] false n = none := by
  unfold readBytes
  split
  · simp
  case isFalse hn =>
    rw [if_neg]
    rintro ⟨_, hle⟩
    exact hn (Nat.le_zero.mp hle)

/-- A text that fits into the buffer with its NUL. -/
structure Fits (text : List Char) : Prop where
  pos : 0 < text.length
  lt : text.length < BUF_LEN
  noNul : '\x00' ∉ text

namespace Fits

variable {text : List Char}

def piece (h : Fits text) : Piece := ⟨text, h.pos, h.lt.le⟩

theorem readBytes_whole (h : Fits text) (peerGone : Bool) :
    readBytes text peerGone text.length = some text := by
  unfold readBytes
  rw [if_neg h.pos.ne', if_pos ⟨h.lt.le, le_rfl⟩, List.take_length]

theorem terminated (h : Fits text) : h.piece.Terminated := .inr h.lt

theorem nul_mem_buffer (h : Fits text) : '\x00' ∈ buffer text :=
  (nul_mem_buffer_iff h.piece).mpr h.terminated

theorem command (h : Fits text) : h.piece.command = text := cString_eq_self h.noNul

theorem cString_buffer_eq (h : Fits text) : cString '\x00' (buffer text) = text :=
  (cString_buffer h.piece).trans h.command

theorem take (h : Fits text) {n : Nat} (hn : 0 < n) : Fits (text.take n) where
  pos := by
    have hpos := h.pos
    rw [List.length_take]
    omega
  lt := by
    have hlt := h.lt
    rw [List.length_take]
    omega
  noNul hmem := h.noNul (List.mem_of_mem_take hmem)

end Fits

theorem fits_text (r : Request) : Fits r.text := by
  cases r <;> exact ⟨by decide, by decide, by decide⟩

theorem fits_quit : Fits quit := ⟨by decide, by decide, by decide⟩

theorem fits_answer {pid : Nat} (hpid : pid < 2 ^ 31) (r : Request) : Fits (answer pid r) := by
  cases r with
  | sleep =>
      have hdone : Fits "Done".toList := ⟨by decide, by decide, by decide⟩
      exact hdone
  | pid =>
      have hdigits : (decimal pid).length ≤ 10 :=
        (length_decimal_le_iff (by decide)).mpr (hpid.trans (by decide))
      have hlength : (answer pid .pid).length = 20 + (decimal pid).length :=
        List.length_append
      refine ⟨by omega, by change _ < 256; omega, ?_⟩
      intro hmem
      rcases List.mem_append.mp hmem with htext | hnumber
      · exact absurd htext (by decide)
      · cases isDigit_of_mem_decimal hnumber

theorem after_text (pid : Nat) (r : Request) :
    ClientPc.after (turn pid true (buffer r.text)) = .write (answer pid r) := by
  have hrequest : (fits_text r).piece.request? = some r := by
    cases r <;> decide
  have hturn := turn_eq pid true (fits_text r).terminated
  rw [hrequest] at hturn
  exact congrArg ClientPc.after hturn

theorem after_quit (pid : Nat) : ClientPc.after (turn pid true (buffer quit)) = .close := by
  have hrequest : fits_quit.piece.request? = none := by decide
  have hcommand : fits_quit.piece.command = quit := fits_quit.command
  have hturn := turn_eq pid true fits_quit.terminated
  rw [hrequest] at hturn
  simp only [hcommand, if_true] at hturn
  exact congrArg ClientPc.after hturn

/-- A text that comes in parts is not the one that was planned. -/
theorem not_prefix_of_part {front back : List (List Char)} {text : List Char} {n : Nat}
    (hn : n < text.length) : ¬ front ++ [text.take n] <+: front ++ text :: back := by
  intro h
  rw [List.prefix_append_right_inj, List.cons_prefix_cons] at h
  have hlength := congrArg List.length h.1
  rw [List.length_take] at hlength
  omega

section Steps

variable {pid n k : Nat} {asked : List Request} {s t : State} {a : Action}

/-- What a step of the dialogue comes to. -/
def Proceeds (pid : Nat) (asked : List Request) (k : Nat) (s : State) (a : Action) (t : State) :
    Prop :=
  (Whole s a ∧ ∃ k' < k, Phase pid asked k' t) ∨ (¬ Whole s a ∧ ¬ OnPlan pid asked t)

theorem Proceeds.of_phase {k' : Nat} (hwhole : Whole s a) (h : Phase pid asked k' t)
    (hlt : k' < k) : Proceeds pid asked k s a t :=
  .inl ⟨hwhole, k', hlt, h⟩

theorem Phase.serverStep_proceeds (hpid : pid < 2 ^ 31) (h : Phase pid asked k s)
    (hstep : serverStep n s = some t) : Proceeds pid asked k s (.server n) t := by
  have hnoread : ∀ {left : List Statement}, left = [.close] ∨ left = [] →
      ¬ ∃ rest, ServerPc.before left = .before (.read :: rest) := by
    rintro _ (rfl | rfl) ⟨rest, hread⟩ <;> cases hread
  cases h with
  | @ask done rest h =>
      cases rest with
      | nil =>
          cases hstep
          rw [List.append_nil] at h
          subst h
          refine .of_phase ?_ (.quitting [.close] (.inl rfl)) (by simp)
          rintro ⟨rest, hread⟩
          cases hread
      | cons r rest =>
          cases hstep
          refine .of_phase ?_ (.asked h) (by rw [List.length_cons]; omega)
          rintro ⟨rest, hread⟩
          cases hread
  | asked h | answering h =>
      obtain ⟨bytes, hbytes, _⟩ := Option.map_eq_some_iff.mp hstep
      cases (readBytes_blocks n).symm.trans hbytes
  | @answered done rest r h =>
      obtain ⟨bytes, hbytes, heq⟩ := Option.map_eq_some_iff.mp hstep
      obtain ⟨rfl, hle, hpos⟩ := readBytes_eq_some hbytes
      have hfits := fits_answer hpid r
      have hn : 0 < n := hpos.resolve_right fun hempty =>
        hfits.pos.ne' (List.length_eq_zero_iff.mpr hempty.1)
      have hpart := hfits.take hn
      rw [if_pos hpart.nul_mem_buffer, hpart.cString_buffer_eq] at heq
      subst heq
      rcases hle.lt_or_eq with hlt | rfl
      · right
        refine ⟨fun hwhole => hlt.ne (hwhole ⟨_, rfl⟩), fun hplan => ?_⟩
        have hreceived := hplan.received
        rw [h, List.map_append, List.map_cons] at hreceived
        exact not_prefix_of_part hlt hreceived
      · refine .of_phase (fun _ => rfl) ?_ (Nat.lt_succ_self (4 * rest.length + 4))
        have hnext : asked = done ++ [r] ++ rest := h.trans (by simp)
        have hask := @Phase.ask pid _ _ _ hnext
        simp only [List.map_append, List.map_singleton] at hask
        simp only [List.drop_length, List.take_length]
        exact hask
  | quitting left h =>
      rcases h with rfl | rfl
      · cases hstep
        exact .of_phase (fun hread => absurd hread (hnoread (.inl rfl)))
          (.quitting [] (.inr rfl)) (by simp)
      · cases hstep
  | leaving left h =>
      rcases h with rfl | rfl
      · cases hstep
        exact .of_phase (fun hread => absurd hread (hnoread (.inl rfl)))
          (.leaving [] (.inr rfl)) (by simp)
      · cases hstep
  | left left h =>
      rcases h with rfl | rfl
      · cases hstep
        exact .of_phase (fun hread => absurd hread (hnoread (.inl rfl)))
          (.left [] (.inr rfl)) (by simp)
      · cases hstep

theorem Phase.clientStep_proceeds (h : Phase pid asked k s)
    (hstep : clientStep pid n s = some t) : Proceeds pid asked k s (.client n) t := by
  cases h with
  | @ask done rest h =>
      obtain ⟨bytes, hbytes, _⟩ := Option.map_eq_some_iff.mp hstep
      cases rest <;> cases (readBytes_blocks n).symm.trans hbytes
  | answered h =>
      obtain ⟨bytes, hbytes, _⟩ := Option.map_eq_some_iff.mp hstep
      cases (readBytes_blocks n).symm.trans hbytes
  | @asked done rest r h =>
      obtain ⟨bytes, hbytes, rfl⟩ := Option.map_eq_some_iff.mp hstep
      obtain ⟨rfl, hle, hpos⟩ := readBytes_eq_some hbytes
      have hfits := fits_text r
      have hn : 0 < n := hpos.resolve_right fun hempty =>
        hfits.pos.ne' (List.length_eq_zero_iff.mpr hempty.1)
      rcases hle.lt_or_eq with hlt | rfl
      · right
        refine ⟨fun hwhole => hlt.ne (hwhole rfl), fun hplan => ?_⟩
        have hcommands := hplan.commands
        simp only [(hfits.take hn).cString_buffer_eq] at hcommands
        rw [h, List.map_append, List.map_cons, List.append_assoc] at hcommands
        exact not_prefix_of_part hlt hcommands
      · refine .of_phase (fun _ => rfl) ?_ (Nat.lt_succ_self (4 * rest.length + 6))
        simp only [List.drop_length, List.take_length, after_text, hfits.cString_buffer_eq]
        exact .answering h
  | answering h =>
      cases hstep
      exact .of_phase (fun hread => by cases hread) (.answered h) (Nat.lt_succ_self _)
  | quitting left h =>
      obtain ⟨bytes, hbytes, rfl⟩ := Option.map_eq_some_iff.mp hstep
      obtain ⟨rfl, hle, hpos⟩ := readBytes_eq_some hbytes
      have hn : 0 < n := hpos.resolve_right fun hempty => by cases hempty.1
      rcases hle.lt_or_eq with hlt | rfl
      · right
        refine ⟨fun hwhole => hlt.ne (hwhole rfl), fun hplan => ?_⟩
        have hcommands := hplan.commands
        simp only [(fits_quit.take hn).cString_buffer_eq] at hcommands
        exact not_prefix_of_part hlt hcommands
      · refine .of_phase (fun _ => rfl) ?_ (Nat.lt_succ_self (left.length + 1))
        simp only [List.drop_length, List.take_length, after_quit, fits_quit.cString_buffer_eq]
        exact .leaving left h
  | leaving left h =>
      cases hstep
      exact .of_phase (fun hread => by cases hread) (.left left h) (Nat.lt_succ_self _)
  | left left h => cases hstep

theorem Phase.proceeds (hpid : pid < 2 ^ 31) (h : Phase pid asked k s)
    (hstep : step pid s a = some t) : Proceeds pid asked k s a t := by
  cases a with
  | server n => exact h.serverStep_proceeds hpid hstep
  | client n => exact h.clientStep_proceeds hstep

theorem Phase.onPlan (h : Phase pid asked k s) : OnPlan pid asked s := by
  cases h with
  | ask h | asked h =>
      refine ⟨?_, ?_⟩
      · rw [h, List.map_append]
        exact List.prefix_append _ _
      · rw [h, List.map_append, List.append_assoc]
        exact List.prefix_append _ _
  | @answering done rest r h | @answered done rest r h =>
      rw [List.append_cons] at h
      have htexts : (done ++ [r]).map Request.text = done.map Request.text ++ [r.text] := by simp
      refine ⟨?_, ?_⟩
      · rw [h, List.map_append, List.map_append, List.append_assoc]
        exact List.prefix_append _ _
      · rw [h, List.map_append, htexts, List.append_assoc]
        exact List.prefix_append _ _
  | quitting _ _ => exact ⟨List.prefix_rfl, List.prefix_append _ _⟩
  | leaving _ _ | left _ _ => exact ⟨List.prefix_rfl, List.prefix_rfl⟩

/-- Nobody waits for ever while the reads are whole. -/
theorem Phase.goesOn (hpid : pid < 2 ^ 31) (h : Phase pid asked k s)
    (hnot : ¬ Completed pid asked s) : ∃ a t, Whole s a ∧ step pid s a = some t := by
  cases h with
  | @ask done rest h => cases rest <;> exact ⟨.server 0, _, by rintro ⟨_, ⟨⟩⟩, rfl⟩
  | @asked done rest r h =>
      have hbytes := (fits_text r).readBytes_whole false
      exact ⟨.client r.text.length, _, fun _ => rfl,
        by simp [step, clientStep, ServerPc.gone, hbytes]; rfl⟩
  | answering h => exact ⟨.client 0, _, nofun, rfl⟩
  | @answered done rest r h =>
      have hbytes := (fits_answer hpid r).readBytes_whole false
      exact ⟨.server (answer pid r).length, _, fun _ => rfl,
        by simp [step, serverStep, ClientPc.gone, hbytes]; rfl⟩
  | quitting left h =>
      have hbytes := fits_quit.readBytes_whole (ServerPc.gone (.before left))
      exact ⟨.client quit.length, _, fun _ => rfl, by simp [step, clientStep, hbytes]; rfl⟩
  | leaving left h => exact ⟨.client 0, _, nofun, rfl⟩
  | left left h =>
      rcases h with rfl | rfl
      · exact ⟨.server 0, _, by rintro ⟨_, ⟨⟩⟩, rfl⟩
      · exact absurd ⟨rfl, rfl, rfl, rfl⟩ hnot

theorem step_grows (h : step pid s a = some t) :
    s.received <+: t.received ∧ s.commands <+: t.commands := by
  cases a with
  | server n =>
      simp only [step, serverStep] at h
      split at h
      · cases h
        split <;> exact ⟨List.prefix_rfl, List.prefix_rfl⟩
      · obtain ⟨bytes, _, rfl⟩ := Option.map_eq_some_iff.mp h
        split
        · exact ⟨List.prefix_append _ _, List.prefix_rfl⟩
        · exact ⟨List.prefix_rfl, List.prefix_rfl⟩
      · cases h
        exact ⟨List.prefix_rfl, List.prefix_rfl⟩
      · cases h
  | client n =>
      simp only [step, clientStep] at h
      split at h
      · obtain ⟨bytes, _, rfl⟩ := Option.map_eq_some_iff.mp h
        exact ⟨List.prefix_rfl, List.prefix_append _ _⟩
      · cases h
        split <;> exact ⟨List.prefix_rfl, List.prefix_rfl⟩
      · cases h
        exact ⟨List.prefix_rfl, List.prefix_rfl⟩
      · cases h

theorem OnPlan.back (h : step pid s a = some t) (ht : OnPlan pid asked t) : OnPlan pid asked s :=
  ⟨(step_grows h).1.trans ht.received, (step_grows h).2.trans ht.commands⟩

end Steps

/-- The programs of the two sides: with whole reads both come to their ends and have
printed the dialogue, and no other run keeps to it. -/
theorem dialogue {pid : Nat} (hpid : pid < 2 ^ 31) :
    EndsWithin (step pid) Whole (Completed pid [.pid, .sleep]) 12 State.initial ∧
      ∀ acts, StatesMeet (step pid) (OnPlan pid [.pid, .sleep]) State.initial acts ↔
        StepsMeet (step pid) Whole State.initial acts := by
  have hstart : Phase pid [.pid, .sleep] 12 State.initial := by
    have hstart : [Request.pid, .sleep] = [] ++ [.pid, .sleep] := rfl
    exact .ask hstart
  refine ⟨?_, fun acts => ?_⟩
  · refine EndsWithin.of_ranked (R := Phase pid [.pid, .sleep]) ?_ ?_ hstart
    · intro k s a t hphase hwhole hstep
      rcases hphase.proceeds hpid hstep with ⟨_, hnext⟩ | ⟨hcut, _⟩
      · exact hnext
      · exact absurd hwhole hcut
    · exact fun k s hphase hnot => hphase.goesOn hpid hnot
  · refine statesMeet_iff_stepsMeet
      (I := fun s => OnPlan pid [.pid, .sleep] s → ∃ k, Phase pid [.pid, .sleep] k s)
      ?_ ?_ (fun _ => ⟨12, hstart⟩) hstart.onPlan acts
    · intro s a t hI hstep ht
      obtain ⟨k, hphase⟩ := hI (ht.back hstep)
      rcases hphase.proceeds hpid hstep with ⟨_, k', _, hphase'⟩ | ⟨_, hoff⟩
      · exact ⟨k', hphase'⟩
      · exact absurd ht hoff
    · intro s a t hI hs hstep
      obtain ⟨k, hphase⟩ := hI hs
      rcases hphase.proceeds hpid hstep with ⟨hwhole, k', _, hphase'⟩ | ⟨hcut, hoff⟩
      · exact iff_of_true hphase'.onPlan hwhole
      · exact iff_of_false hoff hcut

theorem dialogue_4711 :
    EndsWithin (step 4711) Whole (Completed 4711 [.pid, .sleep]) 12 State.initial ∧
      ∀ acts, StatesMeet (step 4711) (OnPlan 4711 [.pid, .sleep]) State.initial acts ↔
        StepsMeet (step 4711) Whole State.initial acts :=
  dialogue (by decide)

/-- The client reads the first command in two parts: both sides wait for each other. -/
example : ∃ s, run (step 4711) State.initial [.server 0, .client 2, .client 1] = some s ∧
    s.commands = ["Pi".toList, "d".toList] ∧ s.server = .before (serverMain.drop 1) ∧
      s.client = .read ∧ s.toServer = [] ∧ s.toClient = [] :=
  ⟨_, rfl, by decide, rfl, by decide, rfl, rfl⟩

end Unx511.Lab6
