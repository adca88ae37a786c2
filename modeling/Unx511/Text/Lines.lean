import Mathlib.Data.List.Infix

/-!
Texts as lists of characters: the lines that a loop over `getline` reads, and
words inside a text. Nothing here knows what the texts are about.
-/

namespace Unx511.Text

/-- The lines that `while (getline(in, line))` reads. The newline behind a line is
taken off; text after the last newline is a line when there is any. -/
def getlines : List Char → List (List Char)
  | [] => []
  | c :: rest =>
      if c = '\n' then [] :: getlines rest
      else
        match getlines rest with
        | [] => [[c]]
        | line :: lines => (c :: line) :: lines

theorem getlines_append (text rest : List Char) :
    getlines (text ++ '\n' :: rest) = text.splitOn '\n' ++ getlines rest := by
  induction text with
  | nil => simp [getlines]
  | cons c text ih =>
      rw [List.cons_append, getlines, ih, List.splitOn_cons_eq_if_modifyHead]
      by_cases hc : c = '\n'
      · simp [hc]
      · obtain ⟨line, lines, hsplit⟩ := List.exists_cons_of_ne_nil (List.splitOn_ne_nil '\n' text)
        simp [hc, hsplit]

/-- A front without the separator belongs to the first piece. -/
theorem splitOn_append {α : Type*} [BEq α] [LawfulBEq α] {sep : α} {front : List α}
    (hfront : sep ∉ front) (text : List α) :
    (front ++ text).splitOn sep = (text.splitOn sep).modifyHead (front ++ ·) := by
  induction front with
  | nil =>
      obtain ⟨piece, pieces, hsplit⟩ := List.exists_cons_of_ne_nil (List.splitOn_ne_nil sep text)
      simp [hsplit]
  | cons c front ih =>
      rw [List.mem_cons, not_or] at hfront
      have hc : (c == sep) = false := by
        simpa using fun h => hfront.1 h.symm
      rw [List.cons_append, List.splitOn_cons_eq_if_modifyHead, hc, ih hfront.2]
      simp [List.modifyHead_modifyHead, Function.comp_def]

theorem getlines_line {line : List Char} (hline : '\n' ∉ line) (after : List Char) :
    getlines (line ++ '\n' :: after) = line :: getlines after := by
  have hsplit : line.splitOn '\n' = [line] := by
    have happend := splitOn_append hline []
    rw [List.append_nil] at happend
    simpa using happend
  rw [getlines_append, hsplit, List.singleton_append]

/-- The last line, which the text ends with. -/
theorem getlines_last {line : List Char} (hline : '\n' ∉ line) :
    getlines line = if line = [] then [] else [line] := by
  induction line with
  | nil => rfl
  | cons c line ih =>
      rw [List.mem_cons, not_or] at hline
      rw [getlines, if_neg (Ne.symm hline.1), ih hline.2, if_neg (List.cons_ne_nil c line)]
      by_cases hnil : line = []
      · rw [if_pos hnil, hnil]
      · rw [if_neg hnil]

section Stop

variable {α : Type*} {p : α → Bool} {front rest : List α}

theorem takeWhile_append_stop (hfront : ∀ c ∈ front, p c = true)
    (hrest : ∀ c, rest.head? = some c → p c = false) : (front ++ rest).takeWhile p = front := by
  rw [List.takeWhile_append_of_pos hfront]
  cases rest with
  | nil => simp
  | cons c rest => simp [hrest c rfl]

theorem dropWhile_append_stop (hfront : ∀ c ∈ front, p c = true)
    (hrest : ∀ c, rest.head? = some c → p c = false) : (front ++ rest).dropWhile p = rest := by
  rw [List.dropWhile_append_of_pos hfront]
  cases rest with
  | nil => rfl
  | cons c rest => simp [hrest c rfl]

end Stop

section Words

variable {α : Type*} {sep : α} {word : List α}

theorem prefix_of_prefix_append_cons (hword : sep ∉ word) (front : List α) {back : List α}
    (h : word <+: front ++ sep :: back) : word <+: front := by
  have hmore : front ++ [sep] <+: front ++ sep :: back := ⟨back, by simp⟩
  rcases List.prefix_or_prefix_of_prefix h hmore with hshort | hlong
  · rcases List.prefix_concat_iff.mp hshort with rfl | hfront
    · simp at hword
    · exact hfront
  · exact absurd (hlong.subset (by simp)) hword

/-- A word without the separator lies on one side of it. -/
theorem infix_append_cons_iff (hword : sep ∉ word) (front back : List α) :
    word <:+: front ++ sep :: back ↔ word <:+: front ∨ word <:+: back := by
  constructor
  · intro h
    induction front with
    | nil =>
        rcases List.infix_cons_iff.mp h with hprefix | hback
        · left
          exact (prefix_of_prefix_append_cons hword [] hprefix).isInfix
        · exact .inr hback
    | cons c front ih =>
        rcases List.infix_cons_iff.mp h with hprefix | hrest
        · left
          exact (prefix_of_prefix_append_cons hword (c :: front) hprefix).isInfix
        · rcases ih hrest with hfront | hback
          · exact .inl (List.infix_cons hfront)
          · exact .inr hback
  · rintro (h | h)
    · exact List.infix_append_of_infix_left h
    · exact List.infix_append_of_infix_right (List.infix_cons h)

/-- A word is not inside a text that lacks one of its letters. -/
theorem not_infix_of_not_mem {c : α} {text : List α} (hword : c ∈ word) (htext : c ∉ text) :
    ¬ word <:+: text :=
  fun h => htext (h.subset hword)

end Words

end Unx511.Text
