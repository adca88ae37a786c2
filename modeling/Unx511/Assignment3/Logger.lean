import Unx511.Text.Lines

/-!
Assignment 3, the client's side of the log: `Log` of `Logger.cpp`, which formats
a record and sends it as one datagram. Texts are lists of characters, one for
each `char`.
-/

namespace Unx511.Assignment3

/-- `enum LOG_LEVEL`. -/
inductive LogLevel where
  | debug
  | warning
  | error
  | critical
  deriving DecidableEq, Repr

namespace LogLevel

def toNat : LogLevel → Nat
  | debug => 0
  | warning => 1
  | error => 2
  | critical => 3

/-- `level_str` in `Log`. -/
def word : LogLevel → List Char
  | debug => ['D', 'E', 'B', 'U', 'G']
  | warning => ['W', 'A', 'R', 'N', 'I', 'N', 'G']
  | error => ['E', 'R', 'R', 'O', 'R']
  | critical => ['C', 'R', 'I', 'T', 'I', 'C', 'A', 'L']

end LogLevel

/-- The fields of `struct tm` that `put_time` prints, the year and the month as
they are printed. -/
structure Tm where
  year : Nat
  mon : Nat
  mday : Nat
  hour : Nat
  min : Nat
  sec : Nat
  deriving DecidableEq, Repr

def digit (n : Nat) : Char := Char.ofNat (48 + n % 10)

def twoDigits (n : Nat) : List Char := [digit (n / 10), digit n]

/-- `put_time(.., "%Y-%m-%d %H:%M:%S")`, for a year of four digits. -/
def putTime (tm : Tm) : List Char :=
  twoDigits (tm.year / 100) ++ twoDigits tm.year ++ '-' :: twoDigits tm.mon ++
    '-' :: twoDigits tm.mday ++ ' ' :: twoDigits tm.hour ++ ':' :: twoDigits tm.min ++
    ':' :: twoDigits tm.sec

/-- One call of `Log`, at the time `tm`. -/
structure Call where
  level : LogLevel
  tm : Tm
  file : List Char
  function : List Char
  line : Int
  message : List Char
  deriving DecidableEq, Repr

namespace Call

/-- What stands behind the level in a record. -/
def free (call : Call) : List Char :=
  call.file ++ ':' :: call.function ++ ':' :: (toString call.line).toList ++ ' ' :: call.message

/-- `log_message_str`. -/
def record (call : Call) : List Char :=
  putTime call.tm ++ ' ' :: (call.level.word ++ ' ' :: call.free)

end Call

/-- The globals that `Log` reads. -/
structure Logger where
  logLevel : Int
  clientFd : Int
  deriving DecidableEq, Repr

/-- `Log`, with the datagram that it sends. -/
def log (logger : Logger) (call : Call) : Option (List Char) :=
  if (call.level.toNat : Int) < logger.logLevel then none
  else if logger.clientFd ≠ -1 then some call.record
  else none

theorem digit_bounds (n : Nat) : ' ' ≤ digit n ∧ digit n ≤ ':' := by
  have hall : ∀ k < 10, ' ' ≤ Char.ofNat (48 + k) ∧ Char.ofNat (48 + k) ≤ ':' := by decide
  exact hall (n % 10) (Nat.mod_lt n (by omega))

/-- A timestamp has no letter and no newline. -/
theorem mem_putTime {tm : Tm} : ∀ c ∈ putTime tm, ' ' ≤ c ∧ c ≤ ':' := by
  have hdigits : ∀ n, ∀ c ∈ twoDigits n, ' ' ≤ c ∧ c ≤ ':' := by
    intro n c hc
    rcases List.mem_pair.mp hc with rfl | rfl
    · exact digit_bounds _
    · exact digit_bounds _
  have hdash : ' ' ≤ '-' ∧ '-' ≤ ':' := by decide
  have hblank : ' ' ≤ ' ' ∧ ' ' ≤ ':' := by decide
  have hcolon : ' ' ≤ ':' ∧ ':' ≤ ':' := by decide
  simp only [putTime, List.forall_mem_append, List.forall_mem_cons]
  exact ⟨⟨⟨⟨⟨⟨hdigits _, hdigits _⟩, hdash, hdigits _⟩, hdash, hdigits _⟩, hblank, hdigits _⟩,
    hcolon, hdigits _⟩, hcolon, hdigits _⟩

theorem not_mem_putTime {tm : Tm} {c : Char} (hc : c < ' ' ∨ ':' < c) : c ∉ putTime tm := by
  intro hmem
  obtain ⟨hlow, hhigh⟩ := mem_putTime c hmem
  rcases hc with hc | hc
  · exact absurd hlow (Char.not_le.mpr hc)
  · exact absurd hhigh (Char.not_le.mpr hc)

end Unx511.Assignment3
