import Unx511.Text.CString
import Unx511.Text.Decimal

/-!
Lab 6: the command loop of `client.cpp`. It takes what one `read` returns for one
command, and does not look at how many bytes that were: the end of the stream is an
empty command, again and again.
-/

namespace Unx511.Lab6

open Text

/-- `sizeof(buffer)` -/
def BUF_LEN : Nat := 256

def quit : List Char := "Quit".toList

/-- The commands that are answered. -/
inductive Request where
  | pid
  | sleep
  deriving DecidableEq, Repr

def Request.ofText? (command : List Char) : Option Request :=
  if command = "Pid".toList then some .pid
  else if command = "Sleep".toList then some .sleep
  else none

/-- The client's answer, when its own process has the number `pid`. -/
def answer (pid : Nat) : Request → List Char
  | .pid => "This client has pid ".toList ++ decimal pid
  | .sleep => "Done".toList

/-- What one `read` returns from the stream. -/
structure Piece where
  bytes : List Char
  pos : 0 < bytes.length
  le : bytes.length ≤ BUF_LEN

/-- The buffer after `memset` and a `read` of these bytes. -/
def buffer (bytes : List Char) : List Char :=
  bytes ++ List.replicate (BUF_LEN - bytes.length) '\x00'

/-- The string that is printed ends behind the array (`overrun`), or SIGPIPE ends the client
as nobody can receive its answer (`killed`). -/
inductive Ending where
  | quit
  | overrun
  | killed
  deriving DecidableEq, Repr

inductive Turn where
  | goesOn
  | answers (text : List Char)
  | ends (ending : Ending)
  deriving DecidableEq, Repr

/-- One iteration, behind the `read`. -/
def turn (pid : Nat) (connected : Bool) (buffer : List Char) : Turn :=
  if '\x00' ∈ buffer then
    let command := cString '\x00' buffer
    match Request.ofText? command with
    | some request => if connected then .answers (answer pid request) else .ends .killed
    | none => if command = quit then .ends .quit else .goesOn
  else
    -- `cout << buffer` reads on behind the array
    .ends .overrun

/-- What `read` returns: nothing when the stream is over. -/
def returned : List Piece → List Char
  | [] => []
  | piece :: _ => piece.bytes

/-- The loop, with the texts that it writes. The server is there for the answers to the
first `connected` reads. -/
def loop (pid : Nat) : Nat → Nat → List Piece → Option (List (List Char) × Ending)
  | 0, _, _ => none
  | fuel + 1, connected, pieces =>
      match turn pid (0 < connected) (buffer (returned pieces)) with
      | .goesOn => loop pid fuel (connected - 1) pieces.tail
      | .answers text =>
          (loop pid fuel (connected - 1) pieces.tail).map fun (texts, ending) =>
            (text :: texts, ending)
      | .ends ending => some ([], ending)

/-- A way in which the commands of the server arrive. -/
structure Delivery (writes : List (List Char)) where
  pieces : List Piece
  whole : (pieces.map Piece.bytes).flatten = writes.flatten
  connected : Nat

/-- What the client is asked for. -/
def requests (writes : List (List Char)) : List Request :=
  (writes.takeWhile fun command => command ≠ quit).filterMap Request.ofText?

/-- The loop ends, and has answered each request. -/
def Obeys (pid : Nat) {writes : List (List Char)} (d : Delivery writes) : Prop :=
  ∃ fuel, loop pid fuel d.connected d.pieces =
    some ((requests writes).map (answer pid), .quit)

namespace Piece

/-- The string at the beginning of the bytes. -/
def command (p : Piece) : List Char := cString '\x00' p.bytes

def request? (p : Piece) : Option Request := Request.ofText? p.command

/-- The string ends within the buffer. -/
def Terminated (p : Piece) : Prop := '\x00' ∈ p.bytes ∨ p.bytes.length < BUF_LEN

end Piece

def beforeQuit (pieces : List Piece) : List Piece :=
  pieces.takeWhile fun p => p.command ≠ quit

/-- A piece is "Quit", the strings before it end within the buffer, the server is there
for the answers, and the pieces ask for what the server asks for. -/
structure Served (connected : Nat) (pieces : List Piece) (asked : List Request) : Prop where
  quits : ∃ p ∈ pieces, p.command = quit
  terminated : ∀ p ∈ beforeQuit pieces, p.Terminated
  connected : ∀ p ∈ (beforeQuit pieces).drop connected, p.request? = none
  asked : (beforeQuit pieces).filterMap Piece.request? = asked

/-! The texts and the buffer. -/

theorem Request.ofText?_quit : Request.ofText? quit = none := by decide

theorem answer_injective (pid : Nat) : Function.Injective (answer pid) := by
  intro a b h
  have hhead : ∀ {r}, (answer pid r).head? = some (if r = .pid then 'T' else 'D') := by
    intro r
    cases r <;> rfl
  have h := congrArg List.head? h
  rw [hhead, hhead] at h
  cases a <;> cases b <;> first | rfl | simp at h

theorem nul_mem_buffer_iff (p : Piece) : '\x00' ∈ buffer p.bytes ↔ p.Terminated := by
  have hroom : BUF_LEN - p.bytes.length ≠ 0 ↔ p.bytes.length < BUF_LEN := by omega
  unfold buffer Piece.Terminated
  rw [List.mem_append, List.mem_replicate, hroom, and_iff_left rfl]

theorem cString_buffer (p : Piece) : cString '\x00' (buffer p.bytes) = p.command := by
  unfold buffer Piece.command
  by_cases hmem : '\x00' ∈ p.bytes
  · obtain ⟨front, rest, hsplit, hfront⟩ := List.eq_append_cons_of_mem hmem
    rw [hsplit, List.append_assoc, List.cons_append, cString_terminated hfront,
      cString_terminated hfront]
  · rw [cString_append hmem, cString_eq_self hmem]
    cases hroom : BUF_LEN - p.bytes.length with
    | zero => simp [cString]
    | succ n => rw [List.replicate_succ, cString_nul_cons, List.append_nil]

theorem Piece.terminated_of_quit {p : Piece} (h : p.command = quit) : p.Terminated := by
  by_cases hmem : '\x00' ∈ p.bytes
  · exact .inl hmem
  · right
    have hbytes : p.bytes = quit := (cString_eq_self hmem).symm.trans h
    rw [hbytes]
    decide

/-! One iteration. -/

section Turn

variable (pid : Nat) (connected : Bool) {p : Piece}

theorem turn_eq (hend : p.Terminated) :
    turn pid connected (buffer p.bytes) =
      match p.request? with
      | some request => if connected then .answers (answer pid request) else .ends .killed
      | none => if p.command = quit then .ends .quit else .goesOn := by
  unfold turn
  rw [if_pos ((nul_mem_buffer_iff p).mpr hend), cString_buffer]
  rfl

theorem turn_overrun (hend : ¬ p.Terminated) :
    turn pid connected (buffer p.bytes) = .ends .overrun := by
  unfold turn
  rw [if_neg (mt (nul_mem_buffer_iff p).mp hend)]

end Turn

/-- The end of the stream is a command like any other, and there is no way out. -/
theorem loop_nil (pid fuel connected : Nat) : loop pid fuel connected [] = none := by
  induction fuel generalizing connected with
  | zero => rfl
  | succ fuel ih =>
      have hturn : turn pid (0 < connected) (buffer (returned [])) = .goesOn := by
        unfold turn
        rw [if_pos (by decide)]
        rfl
      rw [loop, hturn]
      exact ih (connected - 1)

/-! The loop comes to "Quit" with these answers. -/

def Quits (pid connected : Nat) (pieces : List Piece) (texts : List (List Char)) : Prop :=
  ∃ fuel, loop pid fuel connected pieces = some (texts, .quit)

section Quits

variable {pid connected : Nat} {p : Piece} {pieces : List Piece} {texts : List (List Char)}

theorem quits_cons :
    Quits pid connected (p :: pieces) texts ↔
      match turn pid (0 < connected) (buffer p.bytes) with
      | .goesOn => Quits pid (connected - 1) pieces texts
      | .answers text => ∃ later, texts = text :: later ∧ Quits pid (connected - 1) pieces later
      | .ends ending => texts = [] ∧ ending = .quit := by
  have hfuel : Quits pid connected (p :: pieces) texts ↔
      ∃ fuel, loop pid (fuel + 1) connected (p :: pieces) = some (texts, .quit) := by
    constructor
    · rintro ⟨fuel, hloop⟩
      cases fuel with
      | zero => cases hloop
      | succ fuel => exact ⟨fuel, hloop⟩
    · rintro ⟨fuel, hloop⟩
      exact ⟨fuel + 1, hloop⟩
  rw [hfuel]
  simp only [loop, returned, List.tail_cons]
  cases turn pid (0 < connected) (buffer p.bytes) with
  | goesOn => rfl
  | answers text =>
      simp only [Option.map_eq_some_iff]
      constructor
      · rintro ⟨fuel, ⟨later, ending⟩, hloop, heq⟩
        cases heq
        exact ⟨later, rfl, fuel, hloop⟩
      · rintro ⟨later, rfl, fuel, hloop⟩
        exact ⟨fuel, (later, .quit), hloop, rfl⟩
  | ends ending =>
      simp only [Option.some.injEq, Prod.mk.injEq, exists_const]
      exact and_congr_left fun _ => eq_comm

end Quits

section Served

variable {connected : Nat} {p : Piece} {pieces : List Piece} {asked : List Request}

theorem not_served_nil : ¬ Served connected [] asked := by
  intro h
  obtain ⟨p, hp, _⟩ := h.quits
  cases hp

theorem beforeQuit_cons (hquit : p.command ≠ quit) :
    beforeQuit (p :: pieces) = p :: beforeQuit pieces :=
  List.takeWhile_cons_of_pos (decide_eq_true hquit)

theorem served_cons_quit (hquit : p.command = quit) :
    Served connected (p :: pieces) asked ↔ asked = [] := by
  have hbefore : beforeQuit (p :: pieces) = [] :=
    List.takeWhile_cons_of_neg (by simp [hquit])
  constructor
  · intro h
    have hasked := h.asked
    rw [hbefore] at hasked
    exact hasked.symm
  · rintro rfl
    refine ⟨⟨p, List.mem_cons_self, hquit⟩, ?_, ?_, ?_⟩
    · simp [hbefore]
    · simp [hbefore]
    · simp [hbefore]

theorem forall_mem_drop_cons {α : Type*} {P : α → Prop} {a : α} {as : List α} {n : Nat} :
    (∀ b ∈ (a :: as).drop n, P b) ↔ (n = 0 → P a) ∧ ∀ b ∈ as.drop (n - 1), P b := by
  cases n with
  | zero => simp
  | succ n => simp

/-- A piece before "Quit" is treated by itself. -/
theorem served_cons (hquit : p.command ≠ quit) :
    Served connected (p :: pieces) asked ↔
      p.Terminated ∧ (connected = 0 → p.request? = none) ∧
        ∃ later, asked = p.request?.toList ++ later ∧ Served (connected - 1) pieces later := by
  have hasked : (p :: beforeQuit pieces).filterMap Piece.request? =
      p.request?.toList ++ (beforeQuit pieces).filterMap Piece.request? := by
    cases hrequest : p.request? with
    | none => simp [hrequest]
    | some request => simp [hrequest]
  constructor
  · intro h
    obtain ⟨hquits, hterminated, hconnected, rfl⟩ := h
    rw [beforeQuit_cons hquit] at hterminated hconnected ⊢
    rw [List.forall_mem_cons] at hterminated
    rw [forall_mem_drop_cons] at hconnected
    obtain ⟨q, hmem, hq⟩ := hquits
    have hq' : q ∈ pieces := (List.mem_cons.mp hmem).resolve_left (by rintro rfl; exact hquit hq)
    have hlater : Served (connected - 1) pieces ((beforeQuit pieces).filterMap Piece.request?) :=
      ⟨⟨q, hq', hq⟩, hterminated.2, hconnected.2, rfl⟩
    exact ⟨hterminated.1, hconnected.1, _, hasked, hlater⟩
  · rintro ⟨hterminated, hconnected, later, rfl, h⟩
    obtain ⟨q, hmem, hq⟩ := h.quits
    refine ⟨⟨q, List.mem_cons_of_mem p hmem, hq⟩, ?_, ?_, ?_⟩
    · rw [beforeQuit_cons hquit, List.forall_mem_cons]
      exact ⟨hterminated, h.terminated⟩
    · rw [beforeQuit_cons hquit, forall_mem_drop_cons]
      exact ⟨hconnected, h.connected⟩
    · rw [beforeQuit_cons hquit, hasked, h.asked]

end Served

theorem quits_iff (pid : Nat) {pieces : List Piece} {connected : Nat} {texts : List (List Char)} :
    Quits pid connected pieces texts ↔
      ∃ asked, texts = asked.map (answer pid) ∧ Served connected pieces asked := by
  induction pieces generalizing connected texts with
  | nil =>
      constructor
      · rintro ⟨fuel, hloop⟩
        cases (loop_nil pid fuel connected).symm.trans hloop
      · rintro ⟨asked, _, h⟩
        exact absurd h not_served_nil
  | cons p pieces ih =>
      rw [quits_cons]
      by_cases hquit : p.command = quit
      · have hrequest : p.request? = none := by
          unfold Piece.request?
          rw [hquit, Request.ofText?_quit]
        rw [turn_eq pid _ (Piece.terminated_of_quit hquit), hrequest]
        simp [hquit, served_cons_quit hquit]
      · simp only [served_cons hquit]
        by_cases hend : p.Terminated
        case neg => simp [turn_overrun pid _ hend, hend]
        rw [turn_eq pid _ hend]
        cases hrequest : p.request? with
        | none => simp [hquit, hend, ih]
        | some request =>
            by_cases hconnected : 0 < connected
            · have hne : connected ≠ 0 := by omega
              simp only [hconnected, decide_true, if_true, hend, true_and, hne, false_implies,
                Option.toList_some, List.singleton_append, ih]
              constructor
              · rintro ⟨_, rfl, asked, rfl, h⟩
                exact ⟨request :: asked, rfl, asked, rfl, h⟩
              · rintro ⟨_, rfl, asked, rfl, h⟩
                exact ⟨asked.map (answer pid), rfl, asked, rfl, h⟩
            · have hzero : connected = 0 := by omega
              simp [hzero]

/-- For every stream and every way in which it arrives the client ends with its answers
given exactly when the pieces serve it. -/
theorem obeys_iff (pid : Nat) {writes : List (List Char)} (d : Delivery writes) :
    Obeys pid d ↔ Served d.connected d.pieces (requests writes) := by
  change Quits pid d.connected d.pieces ((requests writes).map (answer pid)) ↔ _
  rw [quits_iff]
  constructor
  · rintro ⟨asked, htexts, h⟩
    rwa [(answer_injective pid).list_map htexts]
  · intro h
    exact ⟨requests writes, rfl, h⟩

def pidPiece : Piece := ⟨"Pid".toList, by decide, by decide⟩

/-- The server asks for the process number, receives it and dies. -/
def serverDies : Delivery ["Pid".toList] where
  pieces := [pidPiece]
  whole := rfl
  connected := 1

theorem serverDies_neverEnds :
    (∀ fuel, loop 4711 fuel serverDies.connected serverDies.pieces = none) ∧
      ¬ Obeys 4711 serverDies := by
  have hnever : ∀ fuel, loop 4711 fuel serverDies.connected serverDies.pieces = none := by
    intro fuel
    cases fuel with
    | zero => rfl
    | succ fuel =>
        have hturn : turn 4711 (0 < 1) (buffer pidPiece.bytes) =
            .answers (answer 4711 .pid) := by decide
        change (match turn 4711 (0 < 1) (buffer pidPiece.bytes) with
          | .goesOn => loop 4711 fuel 0 []
          | .answers text =>
              (loop 4711 fuel 0 []).map fun (texts, ending) => (text :: texts, ending)
          | .ends ending => some ([], ending)) = none
        rw [hturn, loop_nil]
        rfl
  refine ⟨hnever, ?_⟩
  rintro ⟨fuel, hloop⟩
  cases (hnever fuel).symm.trans hloop

end Unx511.Lab6
