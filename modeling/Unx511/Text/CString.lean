import Mathlib.Data.List.TakeWhile
import Mathlib.Tactic

/-!
C strings in arrays of characters of any type, `nul` being the terminating
character: what a function reads that is handed such an array, and the bounded
copy `strncpy`. Nothing here knows what the strings are about.
-/

namespace Unx511.Text

variable {β : Type*} [DecidableEq β] {nul : β}

/-- The characters before the first `nul`. -/
def cString (nul : β) (cs : List β) : List β := cs.takeWhile fun c => c ≠ nul

theorem nul_not_mem_cString (cs : List β) : nul ∉ cString nul cs := by
  intro h
  simpa using List.mem_takeWhile_imp h

theorem cString_append {cs : List β} (hcs : nul ∉ cs) (rest : List β) :
    cString nul (cs ++ rest) = cs ++ cString nul rest := by
  apply List.takeWhile_append_of_pos
  intro c hc
  simpa using fun h : c = nul => hcs (h ▸ hc)

theorem cString_nul_cons (rest : List β) : cString nul (nul :: rest) = [] := by
  simp [cString]

/-- A terminated string ends at its own `nul`, whatever stands behind it. -/
theorem cString_terminated {cs : List β} (hcs : nul ∉ cs) (rest : List β) :
    cString nul (cs ++ nul :: rest) = cs := by
  rw [cString_append hcs, cString_nul_cons, List.append_nil]

theorem cString_eq_self {cs : List β} (hcs : nul ∉ cs) : cString nul cs = cs := by
  have h := cString_append hcs []
  rwa [List.append_nil, show cString nul ([] : List β) = [] from rfl, List.append_nil] at h

/-- The array after `strncpy(dst, src, n)`: at most `n` characters of the string,
`nul` up to `n` when it is shorter, and what stood behind them before. -/
def strncpy (nul : β) (dst src : List β) (n : Nat) : List β :=
  (cString nul src).take n ++ List.replicate (n - (cString nul src).length) nul ++ dst.drop n

theorem length_strncpy (dst src : List β) {n : Nat} (hn : n ≤ dst.length) :
    (strncpy nul dst src n).length = dst.length := by
  simp only [strncpy, List.length_append, List.length_take, List.length_replicate,
    List.length_drop]
  omega

/-- A string that leaves room for its `nul` is copied whole. -/
theorem cString_strncpy_of_lt (dst src : List β) {n : Nat}
    (h : (cString nul src).length < n) : cString nul (strncpy nul dst src n) = cString nul src := by
  obtain ⟨k, hk⟩ : ∃ k, n - (cString nul src).length = k + 1 :=
    ⟨n - (cString nul src).length - 1, by omega⟩
  rw [strncpy, List.take_of_length_le h.le, hk, List.replicate_succ, List.append_assoc]
  exact cString_terminated (nul_not_mem_cString src) _

/-- A string that fills the bound runs on into what stood behind it. -/
theorem cString_strncpy_of_le (dst src : List β) {n : Nat}
    (h : n ≤ (cString nul src).length) :
    cString nul (strncpy nul dst src n) = (cString nul src).take n ++ cString nul (dst.drop n) := by
  rw [strncpy, Nat.sub_eq_zero_of_le h, List.replicate_zero, List.append_nil]
  apply cString_append
  exact fun hmem => nul_not_mem_cString src (List.mem_of_mem_take hmem)

/-- The array holds a terminated string exactly when the string is shorter than the
bound or a `nul` stood behind it before. -/
theorem nul_mem_strncpy_iff (dst src : List β) (n : Nat) :
    nul ∈ strncpy nul dst src n ↔ (cString nul src).length < n ∨ nul ∈ dst.drop n := by
  have htake : nul ∉ (cString nul src).take n :=
    fun hmem => nul_not_mem_cString src (List.mem_of_mem_take hmem)
  have hpad : n - (cString nul src).length ≠ 0 ↔ (cString nul src).length < n := by omega
  simp only [strncpy, List.mem_append, List.mem_replicate, htake, false_or, and_true, hpad]

end Unx511.Text
