import Unx511.Assignment3.Logger
import Unx511.Text.StdString

/-!
Assignment 3, `listen_for_commands` of `Logger.cpp`, and the command that
`LogServer.cpp` sends. The client looks for "Set Log Level=" anywhere in a datagram
and takes the number behind the first `=` of the datagram. The two agree where no `=`
stands in front of the key.
-/

namespace Unx511.Assignment3

open Text

/-- "Set Log Level" -/
def keyWord : List Char := ['S', 'e', 't', ' ', 'L', 'o', 'g', ' ', 'L', 'e', 'v', 'e', 'l']

/-- "Set Log Level=" -/
def commandKey : List Char := keyWord ++ ['=']

/-- The position behind the first `=`; `npos + 1` is 0. -/
def behindEquals (command : List Char) : Nat := ((find ['='] command).map (· + 1)).getD 0

/-- The level after one datagram, or the exception that leaves the handler. Malformed
commands are ignored. -/
def handleCommand (command : List Char) (logLevel : Int) : Except StdException Int :=
  if (find commandKey command).isSome then
    tryCatch
      (do
        let text ← substr command (behindEquals command)
        let newLevel ← stoi text
        if LogLevel.debug.toNat ≤ newLevel ∧ newLevel ≤ LogLevel.critical.toNat then
          pure newLevel
        else pure logLevel)
      fun _ => pure logLevel
  else pure logLevel

/-- The loop of the thread, over what the calls of `recvfrom` return: a datagram, or
nothing when the call times out. An exception would end the thread. -/
def listenForCommands (received : List (Option (List Char))) (logLevel : Int) :
    Except StdException Int :=
  received.foldlM
    (fun level datagram =>
      match datagram with
      | some command => handleCommand command level
      | none => pure level)
    logLevel

/-- The level that a text stands for. -/
def levelOf (text : List Char) : Option Int :=
  match stoi text with
  | .ok n => if 0 ≤ n ∧ n ≤ 3 then some n else none
  | .error _ => none

theorem levelOf_eq_some_iff {text : List Char} {n : Int} :
    levelOf text = some n ↔ stoi text = .ok n ∧ 0 ≤ n ∧ n ≤ 3 := by
  unfold levelOf
  split
  · rename_i m hm
    split
    · rename_i hrange
      rw [hm]
      constructor
      · intro h
        cases h
        exact ⟨rfl, hrange⟩
      · rintro ⟨h, _⟩
        cases h
        rfl
    · rename_i hrange
      rw [hm]
      constructor
      · intro h
        cases h
      · rintro ⟨h, hn⟩
        cases h
        exact absurd hn hrange
  · rename_i e he
    rw [he]
    constructor
    · intro h
      cases h
    · rintro ⟨h, _⟩
      cases h

/-- The position behind the first `=` lies inside a datagram with the key. -/
theorem behindEquals_le {command : List Char} : behindEquals command ≤ command.length := by
  unfold behindEquals
  cases hfind : find ['='] command with
  | none => exact Nat.zero_le _
  | some pos =>
      obtain ⟨front, rest, rfl, rfl⟩ := find_split hfind
      simp

/-- A datagram with the key sets the level that stands behind its first `=`. No
exception leaves the handler. -/
theorem handleCommand_eq (command : List Char) (logLevel : Int) :
    handleCommand command logLevel =
      .ok (if (find commandKey command).isSome then
        (levelOf (command.drop (behindEquals command))).getD logLevel
      else logLevel) := by
  unfold handleCommand
  split
  · have hsub : substr command (behindEquals command) =
        .ok (command.drop (behindEquals command)) := if_pos behindEquals_le
    rw [hsub, levelOf]
    cases hstoi : stoi (command.drop (behindEquals command)) with
    | error e =>
        change tryCatch ((stoi (command.drop (behindEquals command))).bind _) _ = _
        rw [hstoi]
        rfl
    | ok n =>
        change tryCatch ((stoi (command.drop (behindEquals command))).bind _) _ = _
        rw [hstoi]
        change tryCatch (if (0 : Int) ≤ n ∧ n ≤ 3 then pure n else pure logLevel) _ =
          Except.ok ((if (0 : Int) ≤ n ∧ n ≤ 3 then some n else none).getD logLevel)
        by_cases hrange : 0 ≤ n ∧ n ≤ 3
        · rw [if_pos hrange, if_pos hrange]
          rfl
        · rw [if_neg hrange, if_neg hrange]
          rfl
  · rfl

/-- Every datagram leaves the thread running and the level in its range. -/
theorem handleCommand_range (command : List Char) {logLevel : Int}
    (hrange : 0 ≤ logLevel ∧ logLevel ≤ 3) :
    ∃ level, handleCommand command logLevel = .ok level ∧ 0 ≤ level ∧ level ≤ 3 := by
  refine ⟨_, handleCommand_eq command logLevel, ?_⟩
  split
  · cases hlevel : levelOf (command.drop (behindEquals command)) with
    | none => exact hrange
    | some n => exact (levelOf_eq_some_iff.mp hlevel).2
  · exact hrange

theorem listenForCommands_range (received : List (Option (List Char))) {logLevel : Int}
    (hrange : 0 ≤ logLevel ∧ logLevel ≤ 3) :
    ∃ level, listenForCommands received logLevel = .ok level ∧ 0 ≤ level ∧ level ≤ 3 := by
  induction received generalizing logLevel with
  | nil => exact ⟨logLevel, rfl, hrange⟩
  | cons datagram rest ih =>
      cases datagram with
      | none => exact ih hrange
      | some command =>
          obtain ⟨level, hlevel, hin⟩ := handleCommand_range command hrange
          obtain ⟨last, hlast, hout⟩ := ih hin
          refine ⟨last, ?_, hout⟩
          change (handleCommand command logLevel).bind (listenForCommands rest) = _
          rw [hlevel]
          exact hlast

/-- The text behind the first "Set Log Level=" of the datagram is a level. -/
def Requests (command : List Char) (n : Int) : Prop :=
  ∃ pos, find commandKey command = some pos ∧
    stoi (command.drop (pos + commandKey.length)) = .ok n ∧ 0 ≤ n ∧ n ≤ 3

/-- From every level, the datagram sets the one that it requests, and changes nothing
when it requests none. -/
def Obeyed (command : List Char) : Prop :=
  ∀ logLevel : Int, 0 ≤ logLevel → logLevel ≤ 3 →
    ∃ level, handleCommand command logLevel = .ok level ∧
      (∀ n, Requests command n → level = n) ∧ ((∀ n, ¬ Requests command n) → level = logLevel)

/-- No `=` stands in front of the first "Set Log Level=" of the datagram. -/
def KeyFirst (command : List Char) : Prop :=
  ∀ pos, find commandKey command = some pos → '=' ∉ command.take pos

theorem behindEquals_of_key {command : List Char} {pos : Nat}
    (hfind : find commandKey command = some pos) (hfront : '=' ∉ command.take pos) :
    behindEquals command = pos + commandKey.length := by
  obtain ⟨front, rest, rfl, rfl⟩ := find_split hfind
  rw [List.append_assoc, List.take_left] at hfront
  have hmem : '=' ∉ front ++ keyWord := by
    rw [List.mem_append, not_or]
    exact ⟨hfront, by decide⟩
  have hsplit : front ++ commandKey ++ rest = (front ++ keyWord) ++ '=' :: rest := by
    simp [commandKey]
  rw [behindEquals, hsplit, find_singleton hmem]
  simp [commandKey, Nat.add_assoc]

theorem requests_iff {command : List Char} {pos : Nat} (hfind : find commandKey command = some pos)
    (n : Int) :
    Requests command n ↔ levelOf (command.drop (pos + commandKey.length)) = some n := by
  rw [levelOf_eq_some_iff]
  constructor
  · rintro ⟨pos', hfind', h⟩
    obtain rfl := Option.some.inj (hfind.symm.trans hfind')
    exact h
  · exact fun h => ⟨pos, hfind, h⟩

theorem obeyed_of_no_key {command : List Char} (hfind : find commandKey command = none) :
    Obeyed command := by
  have hnone : ∀ n, ¬ Requests command n := by
    rintro n ⟨pos, hpos, _⟩
    cases hfind.symm.trans hpos
  intro logLevel _ _
  refine ⟨logLevel, ?_, fun n hn => absurd hn (hnone n), fun _ => rfl⟩
  rw [handleCommand_eq, hfind]
  rfl

/-- A datagram with the key is obeyed when the level behind its first `=` is the one
behind the key. -/
theorem obeyed_iff_same {command : List Char} {pos : Nat}
    (hfind : find commandKey command = some pos) :
    Obeyed command ↔
      levelOf (command.drop (behindEquals command)) =
        levelOf (command.drop (pos + commandKey.length)) := by
  have hhandle : ∀ logLevel, handleCommand command logLevel =
      .ok ((levelOf (command.drop (behindEquals command))).getD logLevel) := by
    intro logLevel
    rw [handleCommand_eq, hfind]
    rfl
  simp only [Obeyed, hhandle, requests_iff hfind]
  generalize levelOf (command.drop (behindEquals command)) = taken
  generalize levelOf (command.drop (pos + commandKey.length)) = requested
  constructor
  · intro h
    -- from two different levels, only the requested one leads to the same level
    obtain ⟨l, hl, hset, hkeep⟩ := h 0 (by decide) (by decide)
    obtain ⟨l', hl', hset', hkeep'⟩ := h 1 (by decide) (by decide)
    cases hl
    cases hl'
    cases requested with
    | none =>
        have h0 := hkeep fun n hn => by cases hn
        have h1 := hkeep' fun n hn => by cases hn
        cases taken with
        | none => rfl
        | some m => exact absurd (h0.symm.trans h1) (by decide)
    | some n =>
        have h0 := hset n rfl
        have h1 := hset' n rfl
        cases taken with
        | none => exact absurd (h0.trans h1.symm) (by decide)
        | some m => exact congrArg some h0
  · rintro rfl logLevel _ _
    refine ⟨_, rfl, ?_, ?_⟩
    · rintro n rfl
      rfl
    · intro hnone
      cases taken with
      | none => rfl
      | some n => exact absurd rfl (hnone n)

theorem obeyed_of_keyFirst {command : List Char} (h : KeyFirst command) : Obeyed command := by
  cases hfind : find commandKey command with
  | none => exact obeyed_of_no_key hfind
  | some pos => rw [obeyed_iff_same hfind, behindEquals_of_key hfind (h pos hfind)]

/-- Behind an earlier `=` the client reads up to the "S" of the key at most, whatever the
level behind the key. -/
theorem level_of_earlier {front : List Char} (hfront : '=' ∈ front) :
    ∃ taken, ∀ rest, levelOf ((front ++ commandKey ++ rest).drop
      (behindEquals (front ++ commandKey ++ rest))) = taken := by
  obtain ⟨before, between, rfl, hbefore⟩ := List.eq_append_cons_of_mem hfront
  refine ⟨levelOf (between ++ ['S']), fun rest => ?_⟩
  have hcommand : before ++ '=' :: between ++ commandKey ++ rest =
      before ++ '=' :: (between ++ 'S' :: (commandKey.tail ++ rest)) := by
    simp [commandKey, keyWord]
  have hbehind : behindEquals (before ++ '=' :: (between ++ 'S' :: (commandKey.tail ++ rest))) =
      (before ++ ['=']).length := by
    rw [behindEquals, find_singleton hbefore]
    simp
  have hdrop : before ++ '=' :: (between ++ 'S' :: (commandKey.tail ++ rest)) =
      before ++ ['='] ++ (between ++ 'S' :: (commandKey.tail ++ rest)) := by
    simp
  rw [hcommand, hbehind, hdrop, List.drop_left, levelOf, levelOf,
    stoi_stop (by decide) (by decide) (by decide) (by decide) between _ []]

/-- With an earlier `=` in front of the key, a text behind the key asks for another level
than the one that is taken. -/
theorem not_obeyed_of_earlier {command : List Char} {pos : Nat}
    (hfind : find commandKey command = some pos) (hearlier : '=' ∈ command.take pos) :
    ∃ rest, ¬ Obeyed (command.take (pos + commandKey.length) ++ rest) := by
  obtain ⟨front, rest, rfl, rfl⟩ := find_split hfind
  have hkey : (front ++ commandKey ++ rest).take (front.length + commandKey.length) =
      front ++ commandKey := by
    rw [← List.length_append, List.take_left]
  rw [List.append_assoc, List.take_left] at hearlier
  obtain ⟨taken, htaken⟩ := level_of_earlier hearlier
  have hasked (digit : Char) : Obeyed (front ++ commandKey ++ [digit]) →
      taken = levelOf [digit] := by
    intro hobeyed
    rw [obeyed_iff_same (find_behind hfind [digit]), htaken, ← List.length_append,
      List.drop_left] at hobeyed
    exact hobeyed
  rw [hkey]
  by_cases hzero : Obeyed (front ++ commandKey ++ ['0'])
  · refine ⟨['1'], fun hone => ?_⟩
    have hsame := (hasked '0' hzero).symm.trans (hasked '1' hone)
    exact absurd hsame (by decide)
  · exact ⟨['0'], hzero⟩

/-- The client obeys every datagram in which no `=` stands in front of the key. Where one
does, what the client does depends on a text that is not the command: another text behind
the key is not obeyed. -/
theorem obeyed_keyFirst (command : List Char) :
    (KeyFirst command → Obeyed command) ∧
      ∀ pos, find commandKey command = some pos → '=' ∈ command.take pos →
        ∃ rest, ¬ Obeyed (command.take (pos + commandKey.length) ++ rest) :=
  ⟨obeyed_of_keyFirst, fun _ => not_obeyed_of_earlier⟩

/-- "x=Set Log Level=1" -/
def earlierEquals : List Char := 'x' :: '=' :: (commandKey ++ ['1'])

/-- The level behind the key is not looked at: from the level 0, the datagram that
asks for the level 1 changes nothing. -/
theorem earlierEquals_ignored :
    Requests earlierEquals 1 ∧ handleCommand earlierEquals 0 = .ok 0 ∧ ¬ Obeyed earlierEquals := by
  have hrequests : Requests earlierEquals 1 := ⟨2, by decide, by decide, by decide, by decide⟩
  have hhandle : handleCommand earlierEquals 0 = .ok 0 := by decide
  refine ⟨hrequests, hhandle, fun h => ?_⟩
  obtain ⟨level, hlevel, hset, _⟩ := h 0 (by decide) (by decide)
  have hone : level = 1 := hset 1 hrequests
  cases hhandle.symm.trans hlevel
  exact absurd hone (by decide)

/-- The command that the server sends for a level. -/
def serverCommand (level : LogLevel) : List Char :=
  commandKey ++ [digit level.toNat]

/-- What the server sends is obeyed. -/
theorem handleCommand_serverCommand (level : LogLevel) (logLevel : Int) :
    handleCommand (serverCommand level) logLevel = .ok level.toNat := by
  have hfind : find commandKey (serverCommand level) = some 0 := by
    cases level <;> decide
  have hkey : behindEquals (serverCommand level) = 0 + commandKey.length :=
    behindEquals_of_key hfind (by simp)
  have hlevel : levelOf ((serverCommand level).drop commandKey.length) = some level.toNat := by
    cases level <;> decide
  rw [handleCommand_eq, hfind, hkey, Nat.zero_add, hlevel]
  rfl

end Unx511.Assignment3
