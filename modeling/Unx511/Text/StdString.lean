import Mathlib.Tactic

/-!
Operations of `std::string` on texts as lists of characters: `find`, `substr` and
`std::stoi`, with the exceptions that they throw. Nothing here knows what the texts
are about.
-/

namespace Unx511.Text

/-- The exceptions of the operations below. -/
inductive StdException where
  | invalidArgument
  | outOfRange
  deriving DecidableEq, Repr

section Find

variable {α : Type*} [DecidableEq α]

/-- `text.find(pattern)`, `none` being `npos`. -/
def find (pattern : List α) : List α → Option Nat
  | [] => if pattern = [] then some 0 else none
  | c :: rest =>
      if pattern.isPrefixOf (c :: rest) then some 0 else (find pattern rest).map (· + 1)

/-- `text.substr(pos)` -/
def substr (text : List α) (pos : Nat) : Except StdException (List α) :=
  if pos ≤ text.length then .ok (text.drop pos) else .error .outOfRange

/-- The text around the occurrence that was found. -/
theorem find_split {pattern text : List α} {pos : Nat} (h : find pattern text = some pos) :
    ∃ front rest, text = front ++ pattern ++ rest ∧ front.length = pos := by
  induction text generalizing pos with
  | nil =>
      rw [find] at h
      split at h
      · rename_i hpattern
        cases h
        exact ⟨[], [], by simp [hpattern], rfl⟩
      · cases h
  | cons c text ih =>
      rw [find] at h
      split at h
      · rename_i hprefix
        cases h
        obtain ⟨rest, hrest⟩ := List.isPrefixOf_iff_prefix.mp hprefix
        exact ⟨[], rest, by simp [hrest], rfl⟩
      · obtain ⟨pos', hpos, rfl⟩ := Option.map_eq_some_iff.mp h
        obtain ⟨front, rest, rfl, rfl⟩ := ih hpos
        exact ⟨c :: front, rest, by simp, rfl⟩

/-- A character is found where it stands first. -/
theorem find_singleton {c : α} {front : List α} (hfront : c ∉ front) (rest : List α) :
    find [c] (front ++ c :: rest) = some front.length := by
  induction front with
  | nil =>
      rw [List.nil_append, find, if_pos (by simp [List.isPrefixOf])]
      rfl
  | cons d front ih =>
      rw [List.mem_cons, not_or] at hfront
      rw [List.cons_append, find, if_neg (by simp [List.isPrefixOf, hfront.1]), ih hfront.2]
      rfl

/-- The text behind the first occurrence does not matter to the search. -/
theorem find_behind {pattern front rest : List α}
    (h : find pattern (front ++ pattern ++ rest) = some front.length) (rest' : List α) :
    find pattern (front ++ pattern ++ rest') = some front.length := by
  induction front with
  | nil =>
      cases pattern with
      | nil => cases rest' <;> rfl
      | cons p pattern => exact if_pos (List.isPrefixOf_iff_prefix.mpr (List.prefix_append _ _))
  | cons c front ih =>
      have hfind (tail : List α) : find pattern (c :: front ++ pattern ++ tail) =
          if pattern.isPrefixOf (c :: front ++ pattern ++ tail) then some 0
          else (find pattern (front ++ pattern ++ tail)).map (· + 1) := rfl
      rw [hfind] at h ⊢
      split at h
      · cases h
      · next hnot =>
          obtain ⟨pos, hpos, hlength⟩ := Option.map_eq_some_iff.mp h
          obtain rfl : pos = front.length := Nat.succ.inj hlength
          rw [if_neg, ih hpos]
          · rfl
          · -- a match there would lie in front of the end of the occurrence
            intro hprefix
            have hshort : pattern <+: c :: front ++ pattern :=
              List.prefix_of_prefix_length_le (List.isPrefixOf_iff_prefix.mp hprefix)
                (List.prefix_append _ _) (by simp; omega)
            exact hnot (List.isPrefixOf_iff_prefix.mpr (hshort.trans (List.prefix_append _ _)))

end Find

/-- `isspace` in the "C" locale. -/
def isSpace (c : Char) : Bool :=
  c = ' ' || c = '\t' || c = '\n' || c.toNat = 11 || c.toNat = 12 || c = '\r'

/-- The value of decimal digits. -/
def digitsValue (digits : List Char) : Nat :=
  digits.foldl (fun value c => 10 * value + (c.toNat - '0'.toNat)) 0

/-- An optional sign, and whether it is a minus. -/
def takeSign : List Char → Bool × List Char
  | '-' :: rest => (true, rest)
  | '+' :: rest => (false, rest)
  | text => (false, text)

/-- `std::stoi(text)` for an `int` of 32 bits. A NUL ends the text like any other
character that is no digit. -/
def stoi (text : List Char) : Except StdException Int :=
  let signed := takeSign (text.dropWhile isSpace)
  let digits := signed.2.takeWhile Char.isDigit
  if digits = [] then .error .invalidArgument
  else
    let value : Int := if signed.1 then -(digitsValue digits : Int) else digitsValue digits
    if -2147483648 ≤ value ∧ value ≤ 2147483647 then .ok value else .error .outOfRange

theorem takeSign_of_ne {c : Char} (hminus : c ≠ '-') (hplus : c ≠ '+') (text : List Char) :
    takeSign (c :: text) = (false, c :: text) := by
  unfold takeSign
  split
  · next heq => exact absurd (List.cons.inj heq).1 hminus
  · next heq => exact absurd (List.cons.inj heq).1 hplus
  · rfl

theorem takeSign_append {text : List Char} (htext : text ≠ []) (rest : List Char) :
    takeSign (text ++ rest) = ((takeSign text).1, (takeSign text).2 ++ rest) := by
  obtain ⟨c, cs, rfl⟩ := List.exists_cons_of_ne_nil htext
  rcases eq_or_ne c '-' with rfl | hminus
  · rfl
  · rcases eq_or_ne c '+' with rfl | hplus
    · rfl
    · rw [List.cons_append, takeSign_of_ne hminus hplus, takeSign_of_ne hminus hplus]
      rfl

/-- A number ends at a character that can be no part of it. -/
theorem stoi_stop {c : Char} (hspace : isSpace c = false) (hdigit : c.isDigit = false)
    (hminus : c ≠ '-') (hplus : c ≠ '+') (front rest rest' : List Char) :
    stoi (front ++ c :: rest) = stoi (front ++ c :: rest') := by
  have hdigits (text tail : List Char) :
      (text ++ c :: tail).takeWhile Char.isDigit = text.takeWhile Char.isDigit := by
    rw [List.takeWhile_append, List.takeWhile_cons_of_neg (by simp [hdigit]), List.append_nil]
    split
    · next hall => exact ((List.takeWhile_prefix _).eq_of_length hall).symm
    · rfl
  unfold stoi
  rw [List.dropWhile_append, List.dropWhile_append]
  cases hfront : front.dropWhile isSpace with
  | nil => simp [hspace, takeSign_of_ne hminus hplus, hdigit]
  | cons d text =>
      simp only [List.isEmpty_cons, Bool.false_eq_true, if_false,
        takeSign_append (List.cons_ne_nil d text), hdigits]

end Unx511.Text
