import Mathlib.Data.Fintype.Basic
import Mathlib.Tactic

/-!
Named counting semaphores, and the conservation law of a semaphore that guards
a region: its value plus the number of processes inside the region is constant
while every process enters by a wait and leaves by a post.
-/

namespace Unx511.Posix

/-- A named semaphore. Processes that have opened it keep it when its name goes. -/
structure Semaphore where
  linked : Bool
  value : Nat
  deriving DecidableEq, Repr

namespace Semaphore

/-- `sem_open` with O_CREAT leaves an existing semaphore as it is. -/
def create (value : Nat) (sem : Semaphore) : Semaphore :=
  if sem.linked then sem else { linked := true, value := value }

/-- `sem_wait`, or `none` while it blocks. -/
def wait (sem : Semaphore) : Option Semaphore :=
  if 0 < sem.value then some { sem with value := sem.value - 1 } else none

def post (sem : Semaphore) : Semaphore :=
  { sem with value := sem.value + 1 }

def unlink (sem : Semaphore) : Semaphore :=
  { sem with linked := false }

theorem wait_value {sem sem' : Semaphore} (h : sem.wait = some sem') :
    0 < sem.value ∧ sem'.value + 1 = sem.value := by
  unfold wait at h
  split at h
  case isTrue hpos =>
    cases h
    exact ⟨hpos, Nat.sub_add_cancel hpos⟩
  case isFalse => cases h

theorem create_value {sem : Semaphore} {value : Nat} (h : sem.value = value) :
    (sem.create value).value = value := by
  unfold create
  split
  · exact h
  · rfl

end Semaphore

variable {ι σ : Type*} [Fintype ι] {inside : σ → Bool} {loc : ι → σ}

/-- How many processes are inside the region. -/
def holders (inside : σ → Bool) (loc : ι → σ) : Nat :=
  (Finset.univ.filter fun p => inside (loc p) = true).card

/-- The region and the value of its semaphore account for `units` units. -/
def Conserved (units : Nat) (inside : σ → Bool) (value : Nat) (loc : ι → σ) : Prop :=
  value + holders inside loc = units

theorem holders_eq_card_iff : holders inside loc = Fintype.card ι ↔ ∀ p, inside (loc p) = true := by
  unfold holders
  rw [← Finset.card_univ, Finset.card_filter_eq_iff]
  simp

section Update

variable [DecidableEq ι] {p : ι} {l : σ}

private theorem filter_update_enter (hin : inside l = true) :
    (Finset.univ.filter fun q => inside (Function.update loc p l q) = true) =
      insert p (Finset.univ.filter fun q => inside (loc q) = true) := by
  ext q
  rcases eq_or_ne q p with rfl | hne
  · simp [hin]
  · simp [hne]

theorem holders_update_enter (hout : inside (loc p) = false) (hin : inside l = true) :
    holders inside (Function.update loc p l) = holders inside loc + 1 := by
  unfold holders
  rw [filter_update_enter hin, Finset.card_insert_of_notMem]
  simp [hout]

theorem holders_update_same (h : inside l = inside (loc p)) :
    holders inside (Function.update loc p l) = holders inside loc := by
  unfold holders
  congr 1
  ext q
  rcases eq_or_ne q p with rfl | hne
  · simp [h]
  · simp [hne]

theorem holders_update_leave (hin : inside (loc p) = true) (hout : inside l = false) :
    holders inside (Function.update loc p l) + 1 = holders inside loc := by
  have hback : holders inside (Function.update (Function.update loc p l) p (loc p)) =
      holders inside (Function.update loc p l) + 1 :=
    holders_update_enter (by simpa using hout) hin
  rw [Function.update_idem, Function.update_eq_self] at hback
  exact hback.symm

namespace Conserved

variable {units value : Nat}

theorem frame (h : Conserved units inside value loc) (hsame : inside l = inside (loc p)) :
    Conserved units inside value (Function.update loc p l) := by
  unfold Conserved at *
  rw [holders_update_same hsame]
  exact h

theorem wait (h : Conserved units inside value loc) {value' : Nat} (hvalue : value' + 1 = value)
    (hout : inside (loc p) = false) (hin : inside l = true) :
    Conserved units inside value' (Function.update loc p l) := by
  unfold Conserved at *
  rw [holders_update_enter hout hin]
  omega

theorem post (h : Conserved units inside value loc) (hin : inside (loc p) = true)
    (hout : inside l = false) :
    Conserved units inside (value + 1) (Function.update loc p l) := by
  have hleave := holders_update_leave hin hout
  unfold Conserved at *
  omega

/-- Entering without taking a unit breaks the law for good. -/
theorem not_of_entered (h : Conserved units inside value loc) (hout : inside (loc p) = false)
    (hin : inside l = true) :
    ¬ Conserved units inside value (Function.update loc p l) := by
  unfold Conserved at *
  rw [holders_update_enter hout hin]
  omega

end Conserved

end Update

/-- With one unit at most one process is inside. -/
theorem Conserved.alone {value : Nat} (h : Conserved 1 inside value loc) {p q : ι}
    (hp : inside (loc p) = true) (hq : inside (loc q) = true) : p = q := by
  unfold Conserved holders at h
  have hcard : (Finset.univ.filter fun p => inside (loc p) = true).card ≤ 1 := by omega
  apply Finset.card_le_one.mp hcard
  · simp [hp]
  · simp [hq]

/-- While the last unit is free nobody is inside. -/
theorem Conserved.none_inside {units : Nat} (h : Conserved units inside units loc) (p : ι) :
    inside (loc p) = false := by
  unfold Conserved holders at h
  have hcard : (Finset.univ.filter fun p => inside (loc p) = true).card = 0 := by omega
  have hnot : p ∉ Finset.univ.filter fun p => inside (loc p) = true := by
    rw [Finset.card_eq_zero.mp hcard]
    exact Finset.notMem_empty p
  simpa using hnot

theorem Conserved.value_of_none_inside {units value : Nat} (h : Conserved units inside value loc)
    (hnone : ∀ p, inside (loc p) = false) : value = units := by
  unfold Conserved holders at h
  simpa [hnone] using h

end Unx511.Posix
