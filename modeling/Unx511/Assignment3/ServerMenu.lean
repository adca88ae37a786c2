import Unx511.Assignment3.Commands
import Unx511.Assignment3.LogServer
import Unx511.Text.Istream

/-!
Assignment 3, the menu of `LogServer.cpp` and the receive thread that its end waits for.
The standard input is a finite text. What the menu prints does not come back, and of the
calls that choice 1 makes only the failure of `socket` changes what is read next.
-/

namespace Unx511.Assignment3

open Text

/-- `static_cast<LOG_LEVEL>`, for a value that was checked before. -/
def LogLevel.cast (level : Int) : LogLevel :=
  if level = 0 then .debug else if level = 1 then .warning else if level = 2 then .error
  else .critical

/-- The variables of `main` that outlive one iteration, and the server's level. -/
structure Menu where
  cin : Istream
  input : List Char
  currentServerLogLevel : LogLevel
  shutdownFlag : Bool

/-- An iteration ends by going on, by choice 0 or by an exception that nobody catches. -/
inductive Outcome where
  | again (m : Menu)
  | shutDown (m : Menu)
  | terminated (e : StdException) (m : Menu)

def Outcome.menu : Outcome → Menu
  | .again m | .shutDown m | .terminated _ m => m

/-- `choice` -/
def choiceOf (input : List Char) : Char := input.headD ' '

namespace Menu

def start (text : List Char) (level : LogLevel) : Menu where
  cin := .ofText text
  input := []
  currentServerLogLevel := level
  shutdownFlag := false

/-- "Press ENTER to continue..." -/
def pressEnter (m : Menu) : Menu := { m with cin := m.cin.ignore }

/-- Choice 1 with the text of `level_str`. A failing `socket` leaves the `switch` before
the pause. -/
def applyLevel (socketOk : Bool) (levelStr : List Char) (m : Menu) : Outcome :=
  if levelStr = [] then .again m.pressEnter
  else
    match stoi levelStr with
    | .error e => .terminated e m
    | .ok level =>
        if 0 ≤ level ∧ level ≤ 3 then
          let m := { m with currentServerLogLevel := LogLevel.cast level }
          .again (if socketOk then m.pressEnter else m)
        else .again m.pressEnter

/-- Choice 1. `level_str` is a new string each time. -/
def setLogLevel (socketOk : Bool) (m : Menu) : Outcome :=
  applyLevel socketOk (m.cin.getline []).1 { m with cin := (m.cin.getline []).2 }

/-- `std::getline(std::cin, input)`, into the string of the last iteration. -/
def readChoice (m : Menu) : Menu :=
  { m with input := (m.cin.getline m.input).1, cin := (m.cin.getline m.input).2 }

/-- `switch (choice)` -/
def choose (socketOk : Bool) (m : Menu) : Outcome :=
  if choiceOf m.input = '1' then m.setLogLevel socketOk
  else if choiceOf m.input = '2' then .again m.pressEnter
  else if choiceOf m.input = '0' then .shutDown { m with shutdownFlag := true }
  else .again m

/-- One iteration of the loop. -/
def iteration (socketOk : Bool) (m : Menu) : Outcome := m.readChoice.choose socketOk

/-- The loop, for at most `fuel` iterations, where `socket` tells of each iteration
whether its call succeeds. -/
def serve : Nat → (Nat → Bool) → Menu → Option Outcome
  | 0, _, _ => none
  | fuel + 1, socket, m =>
      match m.iteration (socket 0) with
      | .again m => serve fuel (fun k => socket (k + 1)) m
      | .shutDown m => some (.shutDown m)
      | .terminated e m => some (.terminated e m)

end Menu

/-- Where the receive thread is. Its `recvfrom` returns within the second that
`SO_RCVTIMEO` gives it. -/
inductive ReceiverPc where
  | test
  | receive
  | exited
  deriving DecidableEq, Repr

/-- `receive_logs` goes on by a test or by one datagram (or none). -/
def receiverStep (shutdownFlag : Bool) : ReceiverPc → ReceiverPc
  | .test => if shutdownFlag then .exited else .receive
  | .receive => .test
  | .exited => .exited

/-- `receive_thread.join()` returns, wherever the thread is. -/
def Joins (shutdownFlag : Bool) : Prop :=
  ∀ pc, ∃ k, (receiverStep shutdownFlag)^[k] pc = .exited

/-- The loop ends with the flag set, and so does the receive thread. -/
def ShutsDown (socket : Nat → Bool) (m : Menu) : Prop :=
  ∃ fuel m', m.serve fuel socket = some (.shutDown m') ∧ m'.shutdownFlag = true ∧
    Joins m'.shutdownFlag

/-- What the input has to be: whole lines up to one that begins with 0, where each text
for a level is empty or a number for `stoi`, and with something to skip behind choices 1
and 2. -/
inductive Dialogue : (Nat → Bool) → List Char → Prop where
  | quit {socket : Nat → Bool} {text : List Char} (hchoice : choiceOf text = '0') :
      Dialogue socket text
  | other {socket : Nat → Bool} {line after : List Char} (hline : '\n' ∉ line)
      (hset : choiceOf line ≠ '1') (hdump : choiceOf line ≠ '2')
      (hafter : Dialogue (fun k => socket (k + 1)) after) :
      Dialogue socket (line ++ '\n' :: after)
  | dump {socket : Nat → Bool} {line after : List Char} (hline : '\n' ∉ line)
      (hdump : choiceOf line = '2') (hafter : Dialogue (fun k => socket (k + 1)) after.tail) :
      Dialogue socket (line ++ '\n' :: after)
  | set {socket : Nat → Bool} {line level after : List Char} (hline : '\n' ∉ line)
      (hset : choiceOf line = '1') (hlevel : '\n' ∉ level)
      (hnumber : level = [] ∨ ∃ n, stoi level = .ok n)
      (hafter : Dialogue (fun k => socket (k + 1))
        (if (levelOf level).isSome = true ∧ socket 0 = false then after else after.tail)) :
      Dialogue socket (line ++ '\n' :: (level ++ '\n' :: after))

section Stuck

variable {m : Menu} {socket : Nat → Bool}

theorem joins_of_flag : Joins true := by
  intro pc
  cases pc with
  | test => exact ⟨1, rfl⟩
  | receive => exact ⟨2, rfl⟩
  | exited => exact ⟨0, rfl⟩

/-- Where no line can be read any more the choice is without effect. -/
theorem Menu.choose_stuck (hbad : m.cin.good = false) (hchoice : choiceOf m.input ≠ '0')
    (socketOk : Bool) :
    ∃ m', m.choose socketOk = .again m' ∧ m'.cin.good = false ∧ m'.input = m.input := by
  unfold choose
  rw [if_neg hchoice]
  split
  · obtain ⟨hempty, hbad'⟩ := Istream.getline_not_good hbad []
    unfold setLogLevel applyLevel
    rw [hempty, if_pos rfl]
    exact ⟨_, rfl, Istream.ignore_not_good hbad', rfl⟩
  · split
    · exact ⟨_, rfl, Istream.ignore_not_good hbad, rfl⟩
    · exact ⟨_, rfl, hbad, rfl⟩

/-- When the input has come to its end the last choice is made again. -/
theorem Menu.iteration_stuck (hbad : m.cin.good = false) (hchoice : choiceOf m.input ≠ '0')
    (socketOk : Bool) :
    ∃ m', m.iteration socketOk = .again m' ∧ m'.cin.good = false ∧ m'.input = m.input := by
  obtain ⟨hsame, hbad'⟩ := Istream.getline_not_good hbad m.input
  have hinput : m.readChoice.input = m.input := hsame
  obtain ⟨m', hagain, hcin, hkept⟩ :=
    choose_stuck (m := m.readChoice) hbad' (hinput ▸ hchoice) socketOk
  exact ⟨m', hagain, hcin, hkept.trans hinput⟩

theorem Menu.serve_stuck (hbad : m.cin.good = false) (hchoice : choiceOf m.input ≠ '0')
    (fuel : Nat) : m.serve fuel socket = none := by
  induction fuel generalizing m socket with
  | zero => rfl
  | succ fuel ih =>
      obtain ⟨m', hiteration, hbad', hinput⟩ := Menu.iteration_stuck hbad hchoice (socket 0)
      unfold Menu.serve
      rw [hiteration]
      exact ih hbad' (hinput ▸ hchoice)

end Stuck

theorem not_dialogue_nil (socket : Nat → Bool) : ¬ Dialogue socket [] := by
  intro h
  generalize htext : ([] : List Char) = text at h
  cases h with
  | quit hchoice =>
      subst htext
      cases hchoice
  | other | dump | set => simp at htext

theorem choiceOf_line {line : List Char} (after : List Char) :
    choiceOf (line ++ '\n' :: after) = '0' ↔ choiceOf line = '0' := by
  cases line with
  | nil => exact iff_of_false (show ¬ '\n' = '0' by decide) (show ¬ ' ' = '0' by decide)
  | cons c line => rfl

namespace Menu

variable {m m' : Menu} {socket : Nat → Bool} {socketOk : Bool} {line after : List Char}

theorem serve_again {fuel : Nat} (h : m.iteration (socket 0) = .again m') :
    m.serve (fuel + 1) socket = m'.serve fuel fun k => socket (k + 1) := by
  rw [serve, h]

/-- A choice that is a whole line. -/
theorem readChoice_line (hcin : m.cin = .ofText (line ++ '\n' :: after)) (hline : '\n' ∉ line) :
    m.readChoice.input = line ∧ m.readChoice.cin = .ofText after := by
  unfold readChoice
  rw [hcin, Istream.getline_line hline]
  exact ⟨rfl, rfl⟩

/-- A choice at the end of the input. -/
theorem readChoice_last (hcin : m.cin = .ofText line) (hline : '\n' ∉ line) :
    m.readChoice.input = line ∧ m.readChoice.cin.good = false := by
  unfold readChoice
  rw [hcin]
  exact Istream.getline_last hline m.input

theorem iteration_quit (hchoice : choiceOf m.readChoice.input = '0') (socketOk : Bool) :
    ∃ m', m.iteration socketOk = .shutDown m' ∧ m'.shutdownFlag = true := by
  unfold iteration choose
  rw [if_neg (by rw [hchoice]; decide), if_neg (by rw [hchoice]; decide), if_pos hchoice]
  exact ⟨_, rfl, rfl⟩

theorem iteration_other (hset : choiceOf m.readChoice.input ≠ '1')
    (hdump : choiceOf m.readChoice.input ≠ '2') (hquit : choiceOf m.readChoice.input ≠ '0') :
    m.iteration socketOk = .again m.readChoice := by
  unfold iteration choose
  rw [if_neg hset, if_neg hdump, if_neg hquit]

theorem iteration_dump (hdump : choiceOf m.readChoice.input = '2') :
    m.iteration socketOk = .again m.readChoice.pressEnter := by
  unfold iteration choose
  rw [if_neg (by rw [hdump]; decide), if_pos hdump]

theorem iteration_set (hset : choiceOf m.readChoice.input = '1') :
    m.iteration socketOk = m.readChoice.setLogLevel socketOk := by
  unfold iteration choose
  rw [if_pos hset]

/-- Choice 1 goes on with a text that is empty or a number, and then the pause is left
out when the level is right and `socket` fails. -/
theorem applyLevel_again {levelStr : List Char} (h : levelStr = [] ∨ ∃ n, stoi levelStr = .ok n)
    (socketOk : Bool) (m : Menu) :
    ∃ m', applyLevel socketOk levelStr m = .again m' ∧ m'.input = m.input ∧
      m'.cin = if (levelOf levelStr).isSome = true ∧ socketOk = false then m.cin
        else m.cin.ignore := by
  by_cases hempty : levelStr = []
  · subst hempty
    unfold applyLevel
    rw [if_pos rfl]
    exact ⟨_, rfl, rfl, rfl⟩
  · obtain ⟨n, hn⟩ := h.resolve_left hempty
    unfold applyLevel levelOf
    rw [if_neg hempty, hn]
    by_cases hrange : 0 ≤ n ∧ n ≤ 3
    · simp only [if_pos hrange]
      refine ⟨_, rfl, ?_, ?_⟩
      · cases socketOk <;> rfl
      · cases socketOk <;> rfl
    · simp only [if_neg hrange]
      exact ⟨_, rfl, rfl, rfl⟩

theorem applyLevel_terminated {levelStr : List Char} (hempty : levelStr ≠ [])
    {e : StdException} (he : stoi levelStr = .error e) (socketOk : Bool) (m : Menu) :
    applyLevel socketOk levelStr m = .terminated e m := by
  unfold applyLevel
  rw [if_neg hempty, he]

/-- The text behind the pause. -/
theorem ignore_cases (after : List Char) :
    after = [] ∧ (Istream.ofText after).ignore.good = false ∨
      (Istream.ofText after).ignore = .ofText after.tail := by
  cases after with
  | nil => exact .inl ⟨rfl, rfl⟩
  | cons c after => exact .inr rfl

theorem choiceOf_readChoice {text : List Char} (hcin : m.cin = .ofText text) :
    choiceOf m.readChoice.input = '0' ↔ choiceOf text = '0' := by
  rcases Istream.exists_line text with ⟨line, after, hline, rfl⟩ | hlast
  · rw [(readChoice_line hcin hline).1, choiceOf_line]
  · rw [(readChoice_last hcin hlast).1]

/-- The end of the loop. -/
def Closes (socket : Nat → Bool) (m : Menu) : Prop :=
  ∃ fuel m', m.serve fuel socket = some (.shutDown m') ∧ m'.shutdownFlag = true

theorem closes_again (h : m.iteration (socket 0) = .again m')
    (hcloses : m'.Closes fun k => socket (k + 1)) : m.Closes socket := by
  obtain ⟨fuel, m'', hserve, hflag⟩ := hcloses
  exact ⟨fuel + 1, m'', by rw [serve_again h, hserve], hflag⟩

theorem closes_quit (hchoice : choiceOf m.readChoice.input = '0') : m.Closes socket := by
  obtain ⟨m', hiteration, hflag⟩ := iteration_quit hchoice (socket 0)
  exact ⟨1, m', by rw [serve, hiteration], hflag⟩

theorem closes_of_dialogue {text : List Char} (h : Dialogue socket text)
    (hcin : m.cin = .ofText text) : m.Closes socket := by
  induction h generalizing m with
  | quit hchoice => exact closes_quit ((choiceOf_readChoice hcin).mpr hchoice)
  | @other socket line after hline hset hdump hafter ih =>
      obtain ⟨hinput, hcin'⟩ := readChoice_line hcin hline
      by_cases hquit : choiceOf line = '0'
      · exact closes_quit (hinput ▸ hquit)
      · exact closes_again (iteration_other (hinput ▸ hset) (hinput ▸ hdump) (hinput ▸ hquit))
          (ih hcin')
  | @dump socket line after hline hdump hafter ih =>
      obtain ⟨hinput, hcin'⟩ := readChoice_line hcin hline
      apply closes_again (iteration_dump (hinput ▸ hdump))
      rcases ignore_cases after with ⟨rfl, _⟩ | hignore
      · exact absurd hafter (not_dialogue_nil _)
      · exact ih (by rw [pressEnter, hcin', hignore])
  | @set socket line level after hline hset hlevel hnumber hafter ih =>
      obtain ⟨hinput, hcin'⟩ := readChoice_line hcin hline
      obtain ⟨m', hagain, _, hcin''⟩ := applyLevel_again hnumber (socket 0)
        { m.readChoice with cin := .ofText after }
      have hiteration : m.iteration (socket 0) = .again m' := by
        rw [iteration_set (hinput ▸ hset), setLogLevel, hcin', Istream.getline_line hlevel]
        exact hagain
      apply closes_again hiteration
      by_cases hleft : (levelOf level).isSome = true ∧ socket 0 = false
      · rw [if_pos hleft] at hcin'' ih
        exact ih hcin''
      · rw [if_neg hleft] at hcin'' hafter ih
        rcases ignore_cases after with ⟨rfl, _⟩ | hignore
        · exact absurd hafter (not_dialogue_nil _)
        · exact ih (hcin''.trans hignore)

theorem not_shutDown_of_terminated {fuel : Nat} {e : StdException} {m'' : Menu}
    (h : m.iteration (socket 0) = .terminated e m'') :
    m.serve fuel socket ≠ some (.shutDown m') := by
  cases fuel with
  | zero => simp [serve]
  | succ fuel =>
      rw [serve, h]
      simp

/-- Choice 1 with a level text that is a whole line. -/
theorem set_of_serve {fuel : Nat} {level : List Char}
    (hcin : m.cin = .ofText (line ++ '\n' :: (level ++ '\n' :: after))) (hline : '\n' ∉ line)
    (hset : choiceOf line = '1') (hlevel : '\n' ∉ level)
    (hserve : m.serve (fuel + 1) socket = some (.shutDown m')) :
    (level = [] ∨ ∃ n, stoi level = .ok n) ∧
      ∃ m'' : Menu, m''.cin = .ofText
          (if (levelOf level).isSome = true ∧ socket 0 = false then after else after.tail) ∧
        m''.serve fuel (fun k => socket (k + 1)) = some (.shutDown m') := by
  obtain ⟨hinput, hcin'⟩ := readChoice_line hcin hline
  have hiteration : m.iteration (socket 0) =
      applyLevel (socket 0) level { m.readChoice with cin := .ofText after } := by
    rw [iteration_set (hinput ▸ hset), setLogLevel, hcin', Istream.getline_line hlevel]
  have hnumber : level = [] ∨ ∃ n, stoi level = .ok n := by
    by_contra hnot
    obtain ⟨hempty, hnone⟩ := not_or.mp hnot
    cases he : stoi level with
    | ok n => exact hnone ⟨n, he⟩
    | error e =>
        exact not_shutDown_of_terminated (hiteration.trans (applyLevel_terminated hempty he _ _))
          hserve
  refine ⟨hnumber, ?_⟩
  obtain ⟨m'', hagain, hkept, hcin''⟩ := applyLevel_again hnumber (socket 0)
    { m.readChoice with cin := .ofText after }
  rw [serve_again (hiteration.trans hagain)] at hserve
  refine ⟨m'', ?_, hserve⟩
  by_cases hleft : (levelOf level).isSome = true ∧ socket 0 = false
  · rw [if_pos hleft] at hcin'' ⊢
    exact hcin''
  · rw [if_neg hleft] at hcin'' ⊢
    rcases ignore_cases after with ⟨_, hbad⟩ | hignore
    · rw [serve_stuck (hcin'' ▸ hbad) (by rw [hkept, hinput, hset]; decide)] at hserve
      cases hserve
    · exact hcin''.trans hignore

/-- Choice 1 without a whole line behind it. -/
theorem set_last {fuel : Nat} (hcin : m.cin = .ofText (line ++ '\n' :: after))
    (hline : '\n' ∉ line) (hset : choiceOf line = '1') (hafter : '\n' ∉ after) :
    m.serve fuel socket ≠ some (.shutDown m') := by
  obtain ⟨hinput, hcin'⟩ := readChoice_line hcin hline
  obtain ⟨htext, hbad⟩ := Istream.getline_last hafter []
  have hiteration : m.iteration (socket 0) = applyLevel (socket 0) after
      { m.readChoice with cin := ((Istream.ofText after).getline []).2 } := by
    rw [iteration_set (hinput ▸ hset), setLogLevel, hcin', htext]
  by_cases hnumber : after = [] ∨ ∃ n, stoi after = .ok n
  · obtain ⟨m'', hagain, hkept, hcin''⟩ := applyLevel_again hnumber (socket 0)
      { m.readChoice with cin := ((Istream.ofText after).getline []).2 }
    have hbad' : m''.cin.good = false := by
      rw [hcin'']
      split
      · exact hbad
      · exact Istream.ignore_not_good hbad
    cases fuel with
    | zero => simp [serve]
    | succ fuel =>
        rw [serve_again (hiteration.trans hagain),
          serve_stuck hbad' (by rw [hkept, hinput, hset]; decide)]
        simp
  · obtain ⟨hempty, hnone⟩ := not_or.mp hnumber
    cases he : stoi after with
    | ok n => exact absurd ⟨n, he⟩ hnone
    | error e =>
        exact not_shutDown_of_terminated (hiteration.trans (applyLevel_terminated hempty he _ _))

theorem dialogue_of_serve {fuel : Nat} {text : List Char} (hcin : m.cin = .ofText text)
    (hserve : m.serve fuel socket = some (.shutDown m')) : Dialogue socket text := by
  induction fuel generalizing m socket text with
  | zero => cases hserve
  | succ fuel ih =>
      by_cases hquit : choiceOf text = '0'
      · exact .quit hquit
      rcases Istream.exists_line text with ⟨line, after, hline, rfl⟩ | hlast
      · rw [choiceOf_line] at hquit
        obtain ⟨hinput, hcin'⟩ := readChoice_line hcin hline
        by_cases hset : choiceOf line = '1'
        · rcases Istream.exists_line after with ⟨level, after, hlevel, rfl⟩ | hafter
          · obtain ⟨hnumber, m'', hcin'', hserve'⟩ := set_of_serve hcin hline hset hlevel hserve
            exact .set hline hset hlevel hnumber (ih hcin'' hserve')
          · exact absurd hserve (set_last hcin hline hset hafter)
        by_cases hdump : choiceOf line = '2'
        · rw [serve_again (iteration_dump (hinput ▸ hdump))] at hserve
          rcases ignore_cases after with ⟨rfl, hbad⟩ | hignore
          · rw [pressEnter, hcin', serve_stuck hbad (hinput ▸ hquit)] at hserve
            cases hserve
          · exact .dump hline hdump (ih (by rw [pressEnter, hcin', hignore]) hserve)
        · rw [serve_again (iteration_other (hinput ▸ hset) (hinput ▸ hdump) (hinput ▸ hquit))]
            at hserve
          exact .other hline hset hdump (ih hcin' hserve)
      · -- the choice is the end of the input, and is made for ever
        obtain ⟨hinput, hbad⟩ := readChoice_last hcin hlast
        obtain ⟨m'', hagain, hbad', hkept⟩ := choose_stuck hbad (hinput ▸ hquit) (socket 0)
        rw [serve_again hagain, serve_stuck hbad' (by rw [hkept, hinput]; exact hquit)] at hserve
        cases hserve

/-- A text that stands for no level leaves the level as it is, however the iteration
ends. -/
theorem setLogLevel_kept (h : levelOf (m.cin.getline []).1 = none) (socketOk : Bool) :
    (m.setLogLevel socketOk).menu.currentServerLogLevel = m.currentServerLogLevel := by
  unfold setLogLevel applyLevel
  unfold levelOf at h
  split
  · rfl
  · cases htext : stoi (m.cin.getline []).1 with
    | error e => rfl
    | ok n =>
        rw [htext] at h
        have hrange : ¬ (0 ≤ n ∧ n ≤ 3) := by
          intro hrange
          simp [hrange] at h
        simp only [if_neg hrange]
        rfl

end Menu

theorem shutsDown_iff_closes (socket : Nat → Bool) (m : Menu) :
    ShutsDown socket m ↔ m.Closes socket := by
  constructor
  · rintro ⟨fuel, m', hserve, hflag, _⟩
    exact ⟨fuel, m', hserve, hflag⟩
  · rintro ⟨fuel, m', hserve, hflag⟩
    exact ⟨fuel, m', hserve, hflag, hflag ▸ joins_of_flag⟩

/-- For every input the loop and the receive thread end exactly when the input is a
dialogue, and a bad text for the level never changes the level. -/
theorem serverMenu_shutsDown_iff (socket : Nat → Bool) (text : List Char) (level : LogLevel) :
    (ShutsDown socket (.start text level) ↔ Dialogue socket text) ∧
      ∀ (socketOk : Bool) (m : Menu), levelOf (m.cin.getline []).1 = none →
        (m.setLogLevel socketOk).menu.currentServerLogLevel = m.currentServerLogLevel := by
  refine ⟨?_, fun socketOk m h => Menu.setLogLevel_kept h socketOk⟩
  rw [shutsDown_iff_closes]
  constructor
  · rintro ⟨fuel, m', hserve, _⟩
    exact Menu.dialogue_of_serve rfl hserve
  · exact fun h => Menu.closes_of_dialogue h rfl

/-- Without any input the loop runs for ever, and a level that is no number ends the
program. -/
theorem serverMenu_fails :
    (∀ socket level fuel, Menu.serve fuel socket (.start [] level) = none) ∧
      ∀ socket level, ∃ m, Menu.serve 1 socket (.start "1\nabc\n0\n".toList level) =
        some (.terminated .invalidArgument m) := by
  constructor
  · intro socket level fuel
    cases fuel with
    | zero => rfl
    | succ fuel =>
        have hblank : choiceOf (Menu.start [] level).readChoice.input = ' ' := rfl
        have hagain : (Menu.start [] level).iteration (socket 0) =
            .again (Menu.start [] level).readChoice := by
          apply Menu.iteration_other <;> rw [hblank] <;> decide
        rw [Menu.serve_again hagain]
        exact Menu.serve_stuck rfl (by rw [hblank]; decide) fuel
  · intro socket level
    exact ⟨_, rfl⟩

end Unx511.Assignment3
