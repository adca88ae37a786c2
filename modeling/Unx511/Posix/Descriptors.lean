import Mathlib.Data.List.Basic
import Mathlib.Tactic

/-!
The descriptors of a process: slots that can be empty, where a new file takes the lowest
empty one. A file is moved to another descriptor by `dup2` and `close`, which loses it when
it is there already.
-/

namespace Unx511.Posix

/-- The open files of a process. Behind the last slot nothing is open. -/
structure Descriptors (φ : Type*) where
  slots : List (Option φ)
  deriving DecidableEq, Repr

namespace Descriptors

variable {φ ψ : Type*}

def entry (d : Descriptors φ) (n : Nat) : Option φ := d.slots[n]?.join

def assign (d : Descriptors φ) (n : Nat) (slot : Option φ) : Descriptors φ :=
  if n < d.slots.length then ⟨d.slots.set n slot⟩
  else ⟨d.slots ++ List.replicate (n - d.slots.length) none ++ [slot]⟩

/-- The descriptor that a new file gets. -/
def lowest (d : Descriptors φ) : Nat := d.slots.findIdx Option.isNone

def put (d : Descriptors φ) (file : φ) : Descriptors φ := d.assign d.lowest (some file)

def close (d : Descriptors φ) (n : Nat) : Descriptors φ := d.assign n none

/-- It does nothing when `src` is not open, or is `dst`. -/
def dup2 (d : Descriptors φ) (src dst : Nat) : Descriptors φ :=
  match d.entry src with
  | some file => d.assign dst (some file)
  | none => d

/-- `dup2(src, dst); close(src);` -/
def redirect (d : Descriptors φ) (src dst : Nat) : Descriptors φ := (d.dup2 src dst).close src

/-- The process has the file open under some descriptor. -/
def holds [DecidableEq φ] (d : Descriptors φ) (file : φ) : Bool := decide (some file ∈ d.slots)

/-- The same descriptors, with what is known of their files. -/
def map (f : φ → ψ) (d : Descriptors φ) : Descriptors ψ := ⟨d.slots.map (Option.map f)⟩

variable {d : Descriptors φ} {file : φ} {n m src dst : Nat}

theorem entry_eq_some_iff : d.entry n = some file ↔ d.slots[n]? = some (some file) := by
  unfold entry
  cases d.slots[n]? with
  | none => simp
  | some slot => simp

theorem entry_map (f : φ → ψ) (d : Descriptors φ) (n : Nat) :
    (d.map f).entry n = (d.entry n).map f := by
  unfold entry map
  rw [List.getElem?_map]
  cases d.slots[n]? with
  | none => rfl
  | some slot => rfl

theorem holds_iff [DecidableEq φ] : d.holds file = true ↔ ∃ n, d.entry n = some file := by
  simp only [holds, decide_eq_true_eq, List.mem_iff_getElem?, entry_eq_some_iff]

theorem entry_assign (d : Descriptors φ) (n : Nat) (slot : Option φ) (m : Nat) :
    (d.assign n slot).entry m = if m = n then slot else d.entry m := by
  unfold assign entry
  split
  case isTrue hn =>
    split
    case isTrue heq =>
      subst heq
      rw [List.getElem?_set_self hn]
      rfl
    case isFalse hne => rw [List.getElem?_set_ne (Ne.symm hne)]
  case isFalse hn =>
    have hlength : (d.slots ++ List.replicate (n - d.slots.length) none).length = n := by
      rw [List.length_append, List.length_replicate]
      omega
    split
    case isTrue heq =>
      rw [heq, List.getElem?_append_right hlength.le, hlength, Nat.sub_self]
      rfl
    case isFalse hne =>
      rcases Nat.lt_or_gt_of_ne hne with hlt | hgt
      · rw [List.getElem?_append_left (hlt.trans_eq hlength.symm), List.getElem?_append]
        split
        · rfl
        case isFalse hbehind =>
          rw [List.getElem?_eq_none (Nat.le_of_not_lt hbehind), List.getElem?_replicate]
          split <;> rfl
      · rw [List.getElem?_eq_none, List.getElem?_eq_none]
        · omega
        · rw [List.length_append, hlength, List.length_singleton]
          omega

theorem entry_close (d : Descriptors φ) (n m : Nat) :
    (d.close n).entry m = if m = n then none else d.entry m := entry_assign d n none m

theorem entry_lowest (d : Descriptors φ) : d.entry d.lowest = none := by
  unfold entry lowest
  rcases Nat.lt_or_ge (d.slots.findIdx Option.isNone) d.slots.length with hlt | hge
  · have hnone := List.findIdx_getElem (w := hlt)
    rw [List.getElem?_eq_getElem hlt, Option.isNone_iff_eq_none.mp hnone]
    rfl
  · rw [List.getElem?_eq_none hge]
    rfl

theorem entry_ne_none_of_lt_lowest (h : n < d.lowest) : d.entry n ≠ none := by
  have hlt : n < d.slots.length := h.trans_le List.findIdx_le_length
  have hsome := List.not_of_lt_findIdx h
  unfold entry
  rw [List.getElem?_eq_getElem hlt]
  intro hnone
  rw [Option.join_some] at hnone
  rw [hnone] at hsome
  cases hsome

theorem lowest_eq_zero_iff : d.lowest = 0 ↔ d.entry 0 = none := by
  constructor
  · intro h
    rw [← h]
    exact d.entry_lowest
  · intro h
    by_contra hne
    exact entry_ne_none_of_lt_lowest (Nat.pos_of_ne_zero hne) h

theorem entry_put (d : Descriptors φ) (file : φ) (n : Nat) :
    (d.put file).entry n = if n = d.lowest then some file else d.entry n := entry_assign ..

/-- The next file gets a higher descriptor. -/
theorem lowest_lt_lowest_put (d : Descriptors φ) (file : φ) : d.lowest < (d.put file).lowest := by
  have hfree := (d.put file).entry_lowest
  rw [entry_put] at hfree
  rcases Nat.lt_trichotomy d.lowest (d.put file).lowest with hlt | heq | hgt
  · exact hlt
  · rw [if_pos heq.symm] at hfree
    cases hfree
  · rw [if_neg hgt.ne] at hfree
    exact absurd hfree (entry_ne_none_of_lt_lowest hgt)

theorem entry_dup2 (h : d.entry src = some file) (dst m : Nat) :
    (d.dup2 src dst).entry m = if m = dst then some file else d.entry m := by
  unfold dup2
  rw [h]
  exact entry_assign d dst (some file) m

end Descriptors

end Unx511.Posix
