import Mathlib.Data.List.TakeWhile
import Unx511.Text.Lines

/-!
Splitting a text into words with `strtok`, whose saved position is the text that is
left. Its results are the nonempty pieces between the separators. `strcpy` is the copy
into an array of a given size. Nothing here knows what the words mean.
-/

namespace Unx511.Text

variable {α : Type*} [DecidableEq α]

/-- The maximal pieces of the text without the separator. -/
def words (sep : α) (text : List α) : List (List α) :=
  (text.splitOn sep).filter (· ≠ [])

/-- One call of `strtok`: the token and the text that a next call goes on with. -/
def strtok (sep : α) (text : List α) : Option (List α × List α) :=
  match text.dropWhile (· = sep) with
  | [] => none
  | c :: rest =>
      some (c :: rest.takeWhile (· ≠ sep), (rest.dropWhile (· ≠ sep)).tail)

/-- `strcpy` into an array of `size` characters, or `none` when the text and its NUL
overrun it. -/
def strcpy (size : Nat) (src : List α) : Option (List α) :=
  if src.length + 1 ≤ size then some src else none

variable {sep : α} {token text : List α}

theorem words_append_sep (front rest : List α) :
    words sep (front ++ sep :: rest) = words sep front ++ words sep rest := by
  unfold words
  rw [List.splitOn_eq_splitOnP, List.splitOn_eq_splitOnP, List.splitOn_eq_splitOnP,
    List.splitOnP_append_cons front rest (by simp), List.filter_append]

@[simp] theorem words_nil : words sep [] = [] := by
  simp [words]

theorem words_cons_sep (text : List α) : words sep (sep :: text) = words sep text := by
  have happend : words sep ([] ++ sep :: text) = words sep [] ++ words sep text :=
    words_append_sep [] text
  simpa using happend

/-- A text without the separator is one word. -/
theorem words_of_not_mem (htoken : sep ∉ token) (hne : token ≠ []) : words sep token = [token] := by
  have hsplit : token.splitOn sep = [token] := by
    have happend := splitOn_append htoken []
    simpa using happend
  unfold words
  rw [hsplit]
  simp [hne]

theorem words_dropWhile (text : List α) :
    words sep (text.dropWhile (· = sep)) = words sep text := by
  induction text with
  | nil => rfl
  | cons c text ih =>
      by_cases hc : c = sep
      · subst hc
        rw [List.dropWhile_cons_of_pos (by simp), ih, words_cons_sep]
      · rw [List.dropWhile_cons_of_neg (by simpa using hc)]

/-- A text that begins with a word. -/
theorem words_of_token {c : α} (hc : c ≠ sep) (rest : List α) :
    words sep (c :: rest) =
      (c :: rest.takeWhile (· ≠ sep)) :: words sep (rest.dropWhile (· ≠ sep)).tail := by
  by_cases hmem : sep ∈ rest
  · obtain ⟨front, after, rfl, hfront⟩ := List.eq_append_cons_of_mem hmem
    have htoken : sep ∉ c :: front := by simp [Ne.symm hc, hfront]
    have hall : ∀ d ∈ front, decide (d ≠ sep) = true :=
      fun d hd => decide_eq_true fun heq => hfront (heq ▸ hd)
    have hstop : ∀ d, (sep :: after).head? = some d → decide (d ≠ sep) = false := by simp
    rw [takeWhile_append_stop hall hstop, dropWhile_append_stop hall hstop, ← List.cons_append,
      words_append_sep, words_of_not_mem htoken (by simp)]
    rfl
  · have htoken : sep ∉ c :: rest := by simp [Ne.symm hc, hmem]
    have hall : ∀ d ∈ rest, decide (d ≠ sep) = true :=
      fun d hd => decide_eq_true fun heq => hmem (heq ▸ hd)
    rw [List.takeWhile_eq_self_iff.mpr hall, List.dropWhile_eq_nil_iff.mpr hall,
      words_of_not_mem htoken (by simp)]
    simp

/-- `strtok` takes the words from the text one by one. -/
theorem strtok_cases (sep : α) (text : List α) :
    strtok sep text = none ∧ words sep text = [] ∨
      ∃ token rest, strtok sep text = some (token, rest) ∧
        words sep text = token :: words sep rest := by
  rw [← words_dropWhile]
  unfold strtok
  cases htext : text.dropWhile (· = sep) with
  | nil => exact .inl ⟨rfl, words_nil⟩
  | cons c rest =>
      have hc : c ≠ sep := by
        have hhead := List.head?_dropWhile_not (· = sep) text
        rw [htext] at hhead
        simpa using hhead
      exact .inr ⟨_, _, rfl, words_of_token hc rest⟩

/-- The token and what is left are parts of the text. -/
theorem length_of_strtok {rest : List α} (h : strtok sep text = some (token, rest)) :
    token.length + rest.length ≤ text.length := by
  have hskip := List.length_dropWhile_le (p := (· = sep)) text
  unfold strtok at h
  split at h
  · cases h
  · rename_i c after htext
    cases h
    have hparts := congrArg List.length
      (List.takeWhile_append_dropWhile (p := (· ≠ sep)) (l := after))
    rw [htext] at hskip
    rw [List.length_append] at hparts
    simp only [List.length_cons, List.length_tail] at hskip ⊢
    omega

omit [DecidableEq α] in
theorem strcpy_of_lt {size : Nat} (h : text.length < size) : strcpy size text = some text :=
  if_pos h

end Unx511.Text
