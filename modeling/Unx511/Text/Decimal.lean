import Unx511.Text.Istream
import Unx511.Text.Lines

/-!
Decimal numbers in texts: what `%d` writes, and that the scans read it back.
-/

namespace Unx511.Text

/-- `%d` or `%u` of a number that is not negative. -/
def decimal (n : Nat) : List Char := Nat.toDigits 10 n

/-- `%d` -/
def formatInt : Int → List Char
  | .ofNat n => decimal n
  | .negSucc n => '-' :: decimal (n + 1)

@[simp] theorem formatInt_natCast (n : Nat) : formatInt n = decimal n := rfl

theorem isDigit_of_mem_decimal {n : Nat} {c : Char} (hc : c ∈ decimal n) : c.isDigit = true :=
  Nat.isDigit_of_mem_toDigits (by decide) (by decide) hc

theorem decimal_ne_nil (n : Nat) : decimal n ≠ [] := Nat.toDigits_ne_nil

theorem length_decimal_le_iff {n k : Nat} (hk : 0 < k) :
    (decimal n).length ≤ k ↔ n < 10 ^ k :=
  Nat.length_toDigits_le_iff (by decide) hk

theorem digitsValue_decimal (n : Nat) : digitsValue (decimal n) = n :=
  Nat.ofDigitChars_ten_toDigits

/-- The text goes on with something that is no digit, or not at all. -/
def DigitsEnd (rest : List Char) : Prop := ∀ c, rest.head? = some c → c.isDigit = false

theorem digitsEnd_cons {c : Char} (hc : c.isDigit = false) (rest : List Char) :
    DigitsEnd (c :: rest) := by
  intro d hd
  cases hd
  exact hc

theorem isSpace_of_isDigit {c : Char} (hc : c.isDigit = true) : isSpace c = false := by
  rw [Char.isDigit_iff_toNat] at hc
  have hzero : '0'.toNat = 48 := rfl
  have hnine : '9'.toNat = 57 := rfl
  have hne : ∀ d : Char, d.toNat < 48 → c ≠ d := by
    rintro d hd rfl
    omega
  have hblank := hne ' ' (by decide)
  have htab := hne '\t' (by decide)
  have hnewline := hne '\n' (by decide)
  have hreturn := hne '\r' (by decide)
  simp only [isSpace, hblank, htab, hnewline, hreturn, decide_false, Bool.false_or, Bool.or_false,
    Bool.or_eq_false_iff, decide_eq_false_iff_not]
  omega

theorem takeSign_of_isDigit {c : Char} (hc : c.isDigit = true) (rest : List Char) :
    takeSign (c :: rest) = (false, c :: rest) := by
  refine takeSign_of_ne ?_ ?_ rest
  · rintro rfl
    cases hc
  · rintro rfl
    cases hc

theorem scanInt_decimal (n : Nat) {rest : List Char} (hrest : DigitsEnd rest) :
    scanInt (decimal n ++ rest) = .number n rest := by
  have hdigits : ∀ c ∈ decimal n, c.isDigit = true := fun c hc => isDigit_of_mem_decimal hc
  obtain ⟨c, cs, hc⟩ := List.exists_cons_of_ne_nil (decimal_ne_nil n)
  have hfirst : c.isDigit = true := hdigits c (by rw [hc]; exact List.mem_cons_self)
  have hskip : (decimal n ++ rest).dropWhile isSpace = c :: (cs ++ rest) := by
    rw [hc, List.cons_append, List.dropWhile_cons, isSpace_of_isDigit hfirst]
    rfl
  unfold scanInt
  rw [hskip]
  simp only [takeSign_of_isDigit hfirst]
  rw [← List.cons_append, ← hc, takeWhile_append_stop hdigits hrest,
    dropWhile_append_stop hdigits hrest,
    if_neg (decimal_ne_nil n), digitsValue_decimal]
  rfl

end Unx511.Text
