import Mathlib.Tactic

/-!
The three client programs of Lab 8 and Lab 10. They are near copies of one
another, and a model of one of them takes its number as a parameter.
-/

namespace Unx511

inductive ClientNo where
  | one | two | three
  deriving DecidableEq, Repr

namespace ClientNo

instance : Fintype ClientNo where
  elems := {one, two, three}
  complete no := by cases no <;> decide

/-- The number the sources write for the client. -/
def val : ClientNo → Nat
  | one => 1
  | two => 2
  | three => 3

theorem val_injective : Function.Injective val := by
  intro a b h
  cases a <;> cases b <;> first | rfl | cases h

@[simp] theorem val_inj {a b : ClientNo} : a.val = b.val ↔ a = b :=
  val_injective.eq_iff

theorem val_ne_four (no : ClientNo) : no.val ≠ 4 := by
  cases no <;> decide

end ClientNo

end Unx511
