import Unx511.Text.Strtok

/-!
Lab 7, `Lab7.cpp`: two commands are split into words and run with a pipe between them,
the first one by the child and the second one by the parent. A command has at most
`MAX_ARGS` words; what comes after them is not looked at.
-/

namespace Unx511.Lab7

open Text

def LEN : Nat := 64
def MAX_ARGS : Nat := 3

/-- The loop over the tokens, with the number of rows that are left. It is `none` when a
token overruns its row. -/
def tokenize : Nat → Option (List Char × List Char) → Option (List (List Char))
  | 0, _ => some []
  | _ + 1, none => some []
  | room + 1, some (token, rest) =>
      (strcpy LEN token).bind fun row =>
        (tokenize room (strtok ' ' rest)).map (row :: ·)

/-- The arguments of `execvp`, `none` being NULL. -/
structure Execvp where
  file : Option (List Char)
  argv : List (Option (List Char))
  deriving DecidableEq, Repr

/-- `execvp(cmd[0], cmd)` with the pointers to the rows and NULL behind them. -/
def execvp (rows : List (List Char)) : Execvp where
  file := rows.head?
  argv := rows.map some ++ [none]

inductive Outcome where
  | usage
  | pipeError
  | forkError
  | executed (child parent : Execvp)
  deriving DecidableEq, Repr

/-- The program up to its calls of `execvp`, or `none` when a copy overruns its array.
`pipe` and `fork` succeed or fail. -/
def main (argv : List (List Char)) (pipeOk forkOk : Bool) : Option Outcome :=
  match argv with
  | [_, command1, command2] =>
      (strcpy LEN command1).bind fun argument1 =>
        (strcpy LEN command2).bind fun argument2 =>
          (tokenize MAX_ARGS (strtok ' ' argument1)).bind fun arg1 =>
            (tokenize MAX_ARGS (strtok ' ' argument2)).map fun arg2 =>
              if !pipeOk then .pipeError
              else if !forkOk then .forkError
              else .executed (execvp arg1) (execvp arg2)
  | _ => some .usage

/-- The call gets the first words of the command, as many as there are rows, and NULL
behind them. -/
structure Passes (command : List Char) (call : Execvp) : Prop where
  argv : call.argv = ((words ' ' command).take MAX_ARGS).map some ++ [none]
  file : call.file = (words ' ' command).head?
  named : call.file ≠ none

/-- An error is reported when there is one, and otherwise each call gets its command. -/
def Outcome.Correct (pipeOk forkOk : Bool) (command1 command2 : List Char) : Outcome → Prop
  | .usage => False
  | .pipeError => pipeOk = false
  | .forkError => pipeOk = true ∧ forkOk = false
  | .executed child parent =>
      pipeOk = true ∧ forkOk = true ∧ Passes command1 child ∧ Passes command2 parent

/-- Without an overrun the rows hold the words of the text in order. -/
theorem tokenize_eq_take (room : Nat) {text : List Char} (htext : text.length < LEN) :
    tokenize room (strtok ' ' text) = some ((words ' ' text).take room) := by
  induction room generalizing text with
  | zero => rfl
  | succ room ih =>
      rcases strtok_cases ' ' text with ⟨hnone, hwords⟩ | ⟨token, rest, hsome, hwords⟩
      · rw [hnone, hwords]
        rfl
      · have hlength := length_of_strtok hsome
        have htoken : token.length < LEN := by omega
        have hrest : rest.length < LEN := by omega
        rw [hsome, hwords, tokenize, strcpy_of_lt htoken, Option.bind_some, ih hrest]
        rfl

theorem execvp_passes {command : List Char} (hwords : words ' ' command ≠ []) :
    Passes command (execvp ((words ' ' command).take MAX_ARGS)) := by
  obtain ⟨word, rest, hcommand⟩ := List.exists_cons_of_ne_nil hwords
  refine ⟨rfl, ?_, ?_⟩
  · rw [hcommand]
    rfl
  · rw [hcommand]
    simp [execvp, MAX_ARGS]

/-- Two commands that fit and have a word each: no copy overruns its array, and the
program gives up at `pipe` or `fork` or both calls get what they should. -/
theorem main_correct (name : List Char) {command1 command2 : List Char}
    (hfits1 : command1.length < LEN) (hfits2 : command2.length < LEN)
    (hwords1 : words ' ' command1 ≠ []) (hwords2 : words ' ' command2 ≠ [])
    (pipeOk forkOk : Bool) :
    ∃ outcome, main [name, command1, command2] pipeOk forkOk = some outcome ∧
      outcome.Correct pipeOk forkOk command1 command2 := by
  have hrows1 := tokenize_eq_take MAX_ARGS hfits1
  have hrows2 := tokenize_eq_take MAX_ARGS hfits2
  unfold main
  simp only [strcpy_of_lt hfits1, strcpy_of_lt hfits2, Option.bind_some, hrows1, hrows2,
    Option.map_some]
  refine ⟨_, rfl, ?_⟩
  cases pipeOk with
  | false => exact rfl
  | true =>
      cases forkOk with
      | false => exact ⟨rfl, rfl⟩
      | true => exact ⟨rfl, rfl, execvp_passes hwords1, execvp_passes hwords2⟩

theorem main_correct_sort :
    ∃ outcome, main ["Lab7".toList, "ls  -l".toList, " sort".toList] true true = some outcome ∧
      outcome.Correct true true "ls  -l".toList " sort".toList :=
  main_correct _ (by decide) (by decide) (by decide) (by decide) true true

/-- The fourth word of a command is left out. -/
theorem fourthWord_dropped :
    words ' ' "ls -l -a -h".toList =
        ["ls".toList, "-l".toList, "-a".toList, "-h".toList] ∧
      main ["Lab7".toList, "ls -l -a -h".toList, "wc".toList] true true =
        some (.executed
          ⟨some "ls".toList, [some "ls".toList, some "-l".toList, some "-a".toList, none]⟩
          ⟨some "wc".toList, [some "wc".toList, none]⟩) := by
  decide

end Unx511.Lab7
