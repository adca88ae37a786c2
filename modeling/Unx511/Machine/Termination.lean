import Mathlib.Algebra.BigOperators.Fin
import Unx511.Machine.Run

/-!
Runs that come to an end. A rank that every step brings down bounds their length, and
where no state but a final one is stuck they end there. The rank of a system can be put
together from the ranks of its processes.
-/

namespace Unx511.Machine

section Runs

variable {σ α : Type*} {step : σ → α → Option σ} {cond : σ → α → Prop} {F I : σ → Prop}
  {s t : σ}

/-- A run of admitted steps has at most `bound` of them, and it can go on as long as it
has not come to a state of `F`. -/
structure EndsWithin (step : σ → α → Option σ) (cond : σ → α → Prop) (F : σ → Prop)
    (bound : Nat) (s : σ) : Prop where
  bounded : ∀ as t, run step s as = some t → StepsMeet step cond s as → as.length ≤ bound
  goesOn : ∀ t, Reaches step cond s t → ¬ F t → ∃ a u, cond t a ∧ step t a = some u

/-- What is left of the rank pays for the rest of the run. -/
theorem length_add_rank_le {R : Nat → σ → Prop}
    (hdown : ∀ k s a t, R k s → cond s a → step s a = some t → ∃ k' < k, R k' t)
    {as : List α} {k : Nat} (hR : R k s) (hrun : run step s as = some t)
    (hmeet : StepsMeet step cond s as) : ∃ k', R k' t ∧ as.length + k' ≤ k := by
  induction as generalizing s k with
  | nil =>
      cases hrun
      exact ⟨k, hR, by simp⟩
  | cons a rest ih =>
      rw [run_cons] at hrun
      obtain ⟨u, hstep, hrest⟩ := Option.bind_eq_some_iff.mp hrun
      obtain ⟨hcond, hmeet⟩ := hmeet u hstep
      obtain ⟨j, hlt, hRu⟩ := hdown k s a u hR hcond hstep
      obtain ⟨k', hRt, hle⟩ := ih hRu hrest hmeet
      refine ⟨k', hRt, ?_⟩
      rw [List.length_cons]
      omega

theorem EndsWithin.mono {bound bound' : Nat} (h : EndsWithin step cond F bound s)
    (hle : bound ≤ bound') : EndsWithin step cond F bound' s where
  bounded as t hrun hmeet := (h.bounded as t hrun hmeet).trans hle
  goesOn := h.goesOn

/-- `R k s` says that `s` has the rank `k`, among other things. -/
theorem EndsWithin.of_ranked {R : Nat → σ → Prop}
    (hdown : ∀ k s a t, R k s → cond s a → step s a = some t → ∃ k' < k, R k' t)
    (hgoesOn : ∀ k s, R k s → ¬ F s → ∃ a t, cond s a ∧ step s a = some t)
    {k : Nat} (hR : R k s) : EndsWithin step cond F k s where
  bounded as t hrun hmeet := by
    obtain ⟨k', _, hle⟩ := length_add_rank_le hdown hR hrun hmeet
    omega
  goesOn t hreach := by
    have hranked : ∃ k, R k t := hreach.invariant (I := fun u => ∃ k, R k u) ⟨k, hR⟩
      fun u a v hu hcond hstep => by
        obtain ⟨j, hRu⟩ := hu
        obtain ⟨j', _, hRv⟩ := hdown j u a v hRu hcond hstep
        exact ⟨j', hRv⟩
    obtain ⟨j, hRt⟩ := hranked
    exact hgoesOn j t hRt

theorem EndsWithin.of_rank (rank : σ → Nat)
    (hkeep : ∀ s a t, I s → cond s a → step s a = some t → I t)
    (hrank : ∀ s a t, I s → cond s a → step s a = some t → rank t < rank s)
    (hgoesOn : ∀ s, I s → ¬ F s → ∃ a t, cond s a ∧ step s a = some t) (hI : I s) :
    EndsWithin step cond F (rank s) s := by
  refine .of_ranked (R := fun k s => I s ∧ rank s = k) ?_ ?_ ⟨hI, rfl⟩
  · rintro _ s a t ⟨hI, rfl⟩ hcond hstep
    exact ⟨rank t, hrank s a t hI hcond hstep, hkeep s a t hI hcond hstep, rfl⟩
  · rintro _ s ⟨hI, _⟩
    exact hgoesOn s hI

theorem StepsMeet.cons {a : α} {as : List α} (hcond : cond s a) (hstep : step s a = some t)
    (hmeet : StepsMeet step cond t as) : StepsMeet step cond s (a :: as) := by
  intro u hu
  obtain rfl : t = u := Option.some.inj (hstep.symm.trans hu)
  exact ⟨hcond, hmeet⟩

/-- One step less is left after a step. -/
theorem EndsWithin.tail {bound : Nat} {a : α} (h : EndsWithin step cond F (bound + 1) s)
    (hcond : cond s a) (hstep : step s a = some t) : EndsWithin step cond F bound t where
  bounded as u hrun hmeet := by
    have hle := h.bounded (a :: as) u (by rw [run_cons, hstep, Option.bind_some, hrun])
      (.cons hcond hstep hmeet)
    rw [List.length_cons] at hle
    omega
  goesOn u hreach := h.goesOn u (hreach.head hcond hstep)

/-- A run that goes on as long as it can comes to a state of `F`. -/
theorem EndsWithin.reaches {bound : Nat} (h : EndsWithin step cond F bound s) :
    ∃ t, Reaches step cond s t ∧ F t := by
  induction bound generalizing s with
  | zero =>
      by_contra hnone
      have hnot : ¬ F s := fun hF => hnone ⟨s, .refl s, hF⟩
      obtain ⟨a, u, hcond, hstep⟩ := h.goesOn s (.refl s) hnot
      have hle := h.bounded [a] u (by rw [run_cons, hstep]; rfl) (.cons hcond hstep trivial)
      cases hle
  | succ bound ih =>
      by_cases hF : F s
      · exact ⟨s, .refl s, hF⟩
      · obtain ⟨a, u, hcond, hstep⟩ := h.goesOn s (.refl s) hF
        obtain ⟨t, hreach, ht⟩ := ih (h.tail hcond hstep)
        exact ⟨t, hreach.head hcond hstep, ht⟩

end Runs

section Processes

variable {ι σ : Type*} [Fintype ι] [DecidableEq ι] {loc : ι → σ} {p : ι} {l : σ}

/-- The ranks of the processes together. -/
def totalRank (rank : σ → Nat) (loc : ι → σ) : Nat := ∑ p, rank (loc p)

theorem totalRank_update (rank : σ → Nat) (loc : ι → σ) (p : ι) (l : σ) :
    totalRank rank (Function.update loc p l) + rank (loc p) = totalRank rank loc + rank l := by
  have hsplit := Finset.sum_update_of_mem (Finset.mem_univ p) (rank ∘ loc) (rank l)
  have hback := Finset.add_sum_erase Finset.univ (rank ∘ loc) (Finset.mem_univ p)
  have hcomp : ∀ q,
      rank (Function.update loc p l q) = Function.update (rank ∘ loc) p (rank l) q := by
    intro q
    rcases eq_or_ne q p with rfl | hne
    · simp
    · simp [hne]
  unfold totalRank
  rw [Finset.sum_congr rfl fun q _ => hcomp q, hsplit, Finset.sdiff_singleton_eq_erase]
  have hsum : ∑ q, rank (loc q) = ∑ q, (rank ∘ loc) q := rfl
  rw [hsum, ← hback]
  simp only [Function.comp_apply]
  omega

/-- A process that goes down takes the total down with it. -/
theorem totalRank_update_lt {rank : σ → Nat} (h : rank l < rank (loc p)) :
    totalRank rank (Function.update loc p l) < totalRank rank loc := by
  have hupdate := totalRank_update rank loc p l
  omega

end Processes

/-- A process of a list changes its rank. -/
theorem sum_map_set {σ : Type*} (rank : σ → Nat) {locs : List σ} {i : Nat} {old : σ}
    (hold : locs[i]? = some old) (new : σ) :
    ((locs.set i new).map rank).sum + rank old = (locs.map rank).sum + rank new := by
  induction locs generalizing i with
  | nil => cases hold
  | cons loc locs ih =>
      cases i with
      | zero =>
          cases hold
          simp only [List.set_cons_zero, List.map_cons, List.sum_cons]
          omega
      | succ i =>
          have hrest := ih hold
          simp only [List.set_cons_succ, List.map_cons, List.sum_cons]
          omega

end Unx511.Machine
