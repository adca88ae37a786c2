import Mathlib.Data.List.TakeWhile
import Unx511.Text.StdString

/-!
Input streams of the standard library: the text that is left with the two state bits,
`getline`, `ignore` and the extractions of an `int` and a `char`. The stream has reached
its end when a read met it, so a number that is the last thing in the text sets `eof`.
Nothing here knows what is read.
-/

namespace Unx511.Text

structure Istream where
  rest : List Char
  eof : Bool
  fail : Bool
  deriving DecidableEq, Repr

namespace Istream

def ofText (text : List Char) : Istream where
  rest := text
  eof := false
  fail := false

/-- Every operation needs a good stream, and sets `fail` otherwise. -/
def good (i : Istream) : Bool := !i.eof && !i.fail

@[simp] theorem good_ofText (text : List Char) : (ofText text).good = true := rfl

theorem eq_ofText_of_good {i : Istream} (h : i.good = true) : i = ofText i.rest := by
  obtain ⟨rest, eof, fail⟩ := i
  cases eof <;> cases fail <;> first | rfl | cases h

end Istream

/-- What an extraction of a number finds: white space up to the end, no number in front of the
rest, or one. -/
inductive Scan where
  | blank
  | noNumber (rest : List Char)
  | number (value : Int) (rest : List Char)
  deriving DecidableEq, Repr

/-- White space is skipped, and a sign and digits are read as far as they go. -/
def scanInt (text : List Char) : Scan :=
  match text.dropWhile isSpace with
  | [] => .blank
  | c :: cs =>
      let signed := takeSign (c :: cs)
      let digits := signed.2.takeWhile Char.isDigit
      let rest := signed.2.dropWhile Char.isDigit
      if digits = [] then .noNumber rest
      else .number (if signed.1 then -(digitsValue digits : Int) else digitsValue digits) rest

@[simp] theorem scanInt_nil : scanInt [] = .blank := rfl

/-- The nearest value of an `int`. -/
def toInt (value : Int) : Int := max (-2147483648) (min value 2147483647)

theorem toInt_eq_zero_iff {value : Int} : toInt value = 0 ↔ value = 0 := by
  unfold toInt
  omega

namespace Istream

/-- `i >> value` for an `int` that holds `old`. A number that is none stores 0, one out
of range the nearest limit, and both set `fail`. -/
def readInt (i : Istream) (old : Int) : Int × Istream :=
  if i.good then
    match scanInt i.rest with
    | .blank => (old, { rest := [], eof := true, fail := true })
    | .noNumber rest => (0, { rest := rest, eof := rest.isEmpty, fail := true })
    | .number value rest =>
        (toInt value, { rest := rest, eof := rest.isEmpty, fail := toInt value != value })
  else (old, { i with fail := true })

/-- `i >> c` for a `char`: the character, if there is one. -/
def readChar (i : Istream) : Option Char × Istream :=
  if i.good then
    match i.rest.dropWhile isSpace with
    | [] => (none, { rest := [], eof := true, fail := true })
    | c :: rest => (some c, { i with rest := rest })
  else (none, { i with fail := true })

/-- `std::getline(i, line)`, where `old` is the string before. -/
def getline (i : Istream) (old : List Char) : List Char × Istream :=
  if i.good then
    match i.rest.dropWhile (· ≠ '\n') with
    | _ :: rest => (i.rest.takeWhile (· ≠ '\n'), { i with rest := rest })
    | [] => (i.rest, { rest := [], eof := true, fail := i.rest.isEmpty })
  else (old, { i with fail := true })

/-- `i.ignore()` skips one character. -/
def ignore (i : Istream) : Istream :=
  if i.good then
    match i.rest with
    | [] => { i with eof := true }
    | _ :: rest => { i with rest := rest }
  else { i with fail := true }

variable {i : Istream}

/-- The stream cannot yield a number: it is not good, or there is nothing left in it. -/
def Exhausted (i : Istream) : Prop := i.good = false ∨ scanInt i.rest = .blank

instance : DecidablePred Exhausted := fun _ => inferInstanceAs (Decidable (_ ∨ _))

theorem readInt_exhausted (h : i.Exhausted) (old : Int) :
    (i.readInt old).1 = old ∧ (i.readInt old).2.good = false := by
  unfold readInt
  cases hgood : i.good with
  | false => simp [good]
  | true =>
      have hblank : scanInt i.rest = .blank := h.resolve_left (by simp [hgood])
      rw [if_pos rfl, hblank]
      exact ⟨rfl, rfl⟩

theorem readInt_noNumber {rest : List Char} (hgood : i.good = true)
    (hscan : scanInt i.rest = .noNumber rest) (old : Int) : (i.readInt old).1 = 0 := by
  unfold readInt
  rw [if_pos hgood, hscan]

theorem readInt_number {value : Int} {rest : List Char} (hgood : i.good = true)
    (hscan : scanInt i.rest = .number value rest) (old : Int) :
    i.readInt old =
      (toInt value, { rest := rest, eof := rest.isEmpty, fail := toInt value != value }) := by
  unfold readInt
  rw [if_pos hgood, hscan]

theorem getline_not_good (h : i.good = false) (old : List Char) :
    (i.getline old).1 = old ∧ (i.getline old).2.good = false := by
  unfold getline
  rw [if_neg (by simp [h])]
  exact ⟨rfl, by simp [good]⟩

theorem getline_ofText (text old : List Char) :
    (ofText text).getline old =
      match text.dropWhile (· ≠ '\n') with
      | _ :: rest => (text.takeWhile (· ≠ '\n'), ofText rest)
      | [] => (text, { rest := [], eof := true, fail := text.isEmpty }) :=
  if_pos rfl

/-- A line that ends with a newline. -/
theorem getline_line {line : List Char} (hline : '\n' ∉ line) (after old : List Char) :
    (ofText (line ++ '\n' :: after)).getline old = (line, ofText after) := by
  have hall : ∀ c ∈ line, decide (c ≠ '\n') = true :=
    fun c hc => decide_eq_true fun heq => hline (heq ▸ hc)
  rw [getline_ofText, List.takeWhile_append_of_pos hall, List.dropWhile_append_of_pos hall]
  simp

/-- The last line, which the text ends with. -/
theorem getline_last {line : List Char} (hline : '\n' ∉ line) (old : List Char) :
    ((ofText line).getline old).1 = line ∧ ((ofText line).getline old).2.good = false := by
  have hdrop : line.dropWhile (· ≠ '\n') = [] := by
    rw [List.dropWhile_eq_nil_iff]
    exact fun c hc => decide_eq_true fun heq => hline (heq ▸ hc)
  rw [getline_ofText, hdrop]
  exact ⟨rfl, rfl⟩

/-- A text either begins with a whole line or is part of one. -/
theorem exists_line (text : List Char) :
    (∃ line after, '\n' ∉ line ∧ text = line ++ '\n' :: after) ∨ '\n' ∉ text := by
  by_cases hmem : '\n' ∈ text
  · obtain ⟨line, after, htext, hline⟩ := List.eq_append_cons_of_mem hmem
    exact .inl ⟨line, after, hline, htext⟩
  · exact .inr hmem

theorem ignore_not_good (h : i.good = false) : i.ignore.good = false := by
  unfold ignore
  rw [if_neg (by simp [h])]
  simp [good]

end Istream

end Unx511.Text
