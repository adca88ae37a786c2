import Mathlib.Logic.Relation
import Mathlib.Tactic

/-!
Runs of a partial step function `step : σ → α → Option σ`. An action is one
atomic step of some process together with the outcome of the system call it
makes, and `none` means that the step is not possible (the process is blocked
or is somewhere else). Nothing here knows a program: the models instantiate
`step` and use the invariant rules below.
-/

namespace Unx511.Machine

variable {σ α : Type*} {step : σ → α → Option σ} {cond : σ → α → Prop}

/-- The state after a list of actions, or `none` when one of them is not
possible. -/
def run (step : σ → α → Option σ) : σ → List α → Option σ
  | s, [] => some s
  | s, a :: as => (step s a).bind fun t => run step t as

/-- One step whose action is admitted by `cond` in the state it is taken in. -/
def Steps (step : σ → α → Option σ) (cond : σ → α → Prop) (s t : σ) : Prop :=
  ∃ a, cond s a ∧ step s a = some t

/-- `t` is reached from `s` by steps that all meet `cond`. -/
def Reaches (step : σ → α → Option σ) (cond : σ → α → Prop) : σ → σ → Prop :=
  Relation.ReflTransGen (Steps step cond)

/-- The condition that admits every action. -/
def anyAction : σ → α → Prop := fun _ _ => True

/-- Every state of the run, its first one included, satisfies `P`. A run stops
at the first action that is not possible. -/
def StatesMeet (step : σ → α → Option σ) (P : σ → Prop) : σ → List α → Prop
  | s, [] => P s
  | s, a :: as => P s ∧ ∀ t, step s a = some t → StatesMeet step P t as

/-- Every step that the run takes meets `cond` in the state before it. -/
def StepsMeet (step : σ → α → Option σ) (cond : σ → α → Prop) : σ → List α → Prop
  | _, [] => True
  | s, a :: as => ∀ t, step s a = some t → cond s a ∧ StepsMeet step cond t as

theorem run_cons (s : σ) (a : α) (as : List α) :
    run step s (a :: as) = (step s a).bind fun t => run step t as := rfl

theorem run_append (s : σ) (front back : List α) :
    run step s (front ++ back) =
      (run step s front).bind fun t => run step t back := by
  induction front generalizing s with
  | nil => rfl
  | cons a rest ih =>
      simp only [List.cons_append, run_cons]
      cases step s a with
      | none => rfl
      | some t => exact ih t

theorem run_append_of_eq {s t : σ} {front : List α} (h : run step s front = some t)
    (back : List α) : run step s (front ++ back) = run step t back := by
  rw [run_append, h, Option.bind_some]

instance stepsMeetDecidable (step : σ → α → Option σ) (cond : σ → α → Prop)
    [∀ s a, Decidable (cond s a)] :
    ∀ (s : σ) (as : List α), Decidable (StepsMeet step cond s as)
  | _, [] => isTrue trivial
  | s, a :: as =>
      match h : step s a with
      | none => isTrue fun _ ht => nomatch h.symm.trans ht
      | some t =>
          have : Decidable (StepsMeet step cond t as) := stepsMeetDecidable step cond t as
          decidable_of_iff (cond s a ∧ StepsMeet step cond t as)
            ⟨fun hc _ hu => Option.some.inj (h.symm.trans hu) ▸ hc, fun hc => hc t h⟩

namespace Reaches

/-- A predicate that holds at the start and is kept by every admitted step
holds in every state reached. -/
theorem invariant {I : σ → Prop} {s t : σ} (h : Reaches step cond s t) (hstart : I s)
    (hkeep : ∀ u a v, I u → cond u a → step u a = some v → I v) : I t := by
  induction h with
  | refl => exact hstart
  | tail _ hlast ih =>
      obtain ⟨a, hcond, hstep⟩ := hlast
      exact hkeep _ a _ ih hcond hstep

/-- Forward simulation: where every admitted step is matched by moves of an
abstract system that keep the two related, every state reached is related to
an abstract state reached. -/
theorem simulation {τ : Type*} {Move : τ → τ → Prop} {R : σ → τ → Prop} {s t : σ} {d : τ}
    (h : Reaches step cond s t) (hstart : R s d)
    (hmatch : ∀ u a v e, R u e → cond u a → step u a = some v →
      ∃ f, Relation.ReflTransGen Move e f ∧ R v f) :
    ∃ e, Relation.ReflTransGen Move d e ∧ R t e := by
  induction h with
  | refl => exact ⟨d, Relation.ReflTransGen.refl, hstart⟩
  | tail _ hlast ih =>
      obtain ⟨a, hcond, hstep⟩ := hlast
      obtain ⟨e, hmoves, hrel⟩ := ih
      obtain ⟨f, hmore, hrel'⟩ := hmatch _ a _ e hrel hcond hstep
      exact ⟨f, hmoves.trans hmore, hrel'⟩

theorem refl (s : σ) : Reaches step cond s s := Relation.ReflTransGen.refl

theorem head {s t u : σ} {a : α} (hcond : cond s a) (hstep : step s a = some t)
    (h : Reaches step cond t u) : Reaches step cond s u :=
  Relation.ReflTransGen.head ⟨a, hcond, hstep⟩ h

theorem of_step {s t : σ} {a : α} (hcond : cond s a) (hstep : step s a = some t) :
    Reaches step cond s t :=
  head hcond hstep (refl t)

/-- An executed run whose steps all meet the condition reaches its last state. -/
theorem of_run {s t : σ} (as : List α) (hrun : run step s as = some t)
    (hmeet : StepsMeet step cond s as) : Reaches step cond s t := by
  induction as generalizing s with
  | nil =>
      cases hrun
      exact refl _
  | cons a rest ih =>
      rw [run_cons] at hrun
      obtain ⟨u, hstep, hrest⟩ := Option.bind_eq_some_iff.mp hrun
      obtain ⟨hcond, hmeet⟩ := hmeet u hstep
      exact head hcond hstep (ih hrest hmeet)

theorem of_any_run {s t : σ} (as : List α) (hrun : run step s as = some t) :
    Reaches step anyAction s t := by
  have hmeet : ∀ (bs : List α) (u : σ), StepsMeet step anyAction u bs := by
    intro bs
    induction bs with
    | nil => exact fun _ => trivial
    | cons b rest ih => exact fun _ v _ => ⟨trivial, ih v⟩
  exact of_run as hrun (hmeet as s)

end Reaches

theorem StatesMeet.head {P : σ → Prop} {s : σ} {as : List α}
    (h : StatesMeet step P s as) : P s := by
  cases as with
  | nil => exact h
  | cons a rest => exact h.1

/-- An invariant of the step function holds in every state of a run. -/
theorem StatesMeet.of_invariant {I : σ → Prop}
    (hkeep : ∀ s a t, I s → step s a = some t → I t) {s : σ} (hI : I s) (as : List α) :
    StatesMeet step I s as := by
  induction as generalizing s with
  | nil => exact hI
  | cons a rest ih => exact ⟨hI, fun t hstep => ih (hkeep s a t hI hstep)⟩

theorem StatesMeet.mono {P Q : σ → Prop} (hPQ : ∀ s, P s → Q s) {s : σ} {as : List α}
    (h : StatesMeet step P s as) : StatesMeet step Q s as := by
  induction as generalizing s with
  | nil => exact hPQ s h
  | cons a rest ih => exact ⟨hPQ s h.1, fun t hstep => ih (h.2 t hstep)⟩

theorem StatesMeet.last {P : σ → Prop} {s t : σ} {as : List α}
    (h : StatesMeet step P s as) (hrun : run step s as = some t) : P t := by
  induction as generalizing s with
  | nil =>
      cases hrun
      exact h
  | cons a rest ih =>
      rw [run_cons] at hrun
      obtain ⟨u, hstep, hrest⟩ := Option.bind_eq_some_iff.mp hrun
      exact ih (h.2 u hstep) hrest

/-- What a step never establishes held all along when it holds at the end. -/
theorem StatesMeet.of_last {P : σ → Prop}
    (hback : ∀ s a t, step s a = some t → P t → P s) {s t : σ} {as : List α}
    (hrun : run step s as = some t) (hP : P t) : StatesMeet step P s as := by
  induction as generalizing s with
  | nil =>
      cases hrun
      exact hP
  | cons a rest ih =>
      rw [run_cons] at hrun
      obtain ⟨u, hstep, hrest⟩ := Option.bind_eq_some_iff.mp hrun
      have hmeet : StatesMeet step P u rest := ih hrest
      refine ⟨hback s a u hstep hmeet.head, fun v hv => ?_⟩
      rw [hstep] at hv
      cases hv
      exact hmeet

/-- An invariant that the admitted steps keep holds in every state of a run that
takes no other. -/
theorem StatesMeet.of_stepsMeet {I : σ → Prop}
    (hkeep : ∀ s a t, I s → cond s a → step s a = some t → I t) {s : σ} {as : List α}
    (hI : I s) (hmeet : StepsMeet step cond s as) : StatesMeet step I s as := by
  induction as generalizing s with
  | nil => exact hI
  | cons a rest ih =>
      refine ⟨hI, fun t hstep => ?_⟩
      obtain ⟨hcond, hrest⟩ := hmeet t hstep
      exact ih (hkeep s a t hI hcond hstep) hrest

/-- A property of the states that admits every action makes every step admitted. -/
theorem StatesMeet.stepsMeet {P : σ → Prop} (hP : ∀ s a, P s → cond s a) {s : σ} {as : List α}
    (h : StatesMeet step P s as) : StepsMeet step cond s as := by
  induction as generalizing s with
  | nil => trivial
  | cons a rest ih => exact fun t hstep => ⟨hP s a h.1, ih (h.2 t hstep)⟩

/-- A run either takes admitted steps only, or it ends among the states `D` that
are entered by the other steps and never left. -/
theorem stepsMeet_or {I D : σ → Prop}
    (hkeep : ∀ s a t, I s → cond s a → step s a = some t → I t)
    (hbreak : ∀ s a t, I s → ¬ cond s a → step s a = some t → D t)
    (hstay : ∀ s a t, D s → step s a = some t → D t)
    {s t : σ} {as : List α} (hI : I s) (hrun : run step s as = some t) :
    StepsMeet step cond s as ∨ D t := by
  induction as generalizing s with
  | nil => exact .inl trivial
  | cons a rest ih =>
      rw [run_cons] at hrun
      obtain ⟨u, hstep, hrest⟩ := Option.bind_eq_some_iff.mp hrun
      by_cases hcond : cond s a
      · rcases ih (hkeep s a u hI hcond hstep) hrest with hmeet | hD
        · left
          intro v hv
          obtain rfl : u = v := Option.some.inj (hstep.symm.trans hv)
          exact ⟨hcond, hmeet⟩
        · exact .inr hD
      · right
        exact (Reaches.of_any_run rest hrest).invariant (hbreak s a u hI hcond hstep)
          fun v b w hv _ => hstay v b w hv

/-- Where one step keeps `P` exactly when it meets `cond`, a whole run keeps
`P` exactly when all of its steps meet `cond`. The invariant `I` holds on every
run and is there for the one-step equivalence to use. -/
theorem statesMeet_iff_stepsMeet {P I : σ → Prop}
    (hkeep : ∀ s a t, I s → step s a = some t → I t)
    (hexact : ∀ s a t, I s → P s → step s a = some t → (P t ↔ cond s a))
    {s : σ} (hI : I s) (hP : P s) (as : List α) :
    StatesMeet step P s as ↔ StepsMeet step cond s as := by
  induction as generalizing s with
  | nil => exact ⟨fun _ => trivial, fun _ => hP⟩
  | cons a rest ih =>
      constructor
      · rintro ⟨_, hrest⟩ t hstep
        have hPt : P t := (hrest t hstep).head
        exact ⟨(hexact s a t hI hP hstep).mp hPt,
          (ih (hkeep s a t hI hstep) hPt).mp (hrest t hstep)⟩
      · intro hmeet
        refine ⟨hP, fun t hstep => ?_⟩
        obtain ⟨hcond, hrest⟩ := hmeet t hstep
        have hPt : P t := (hexact s a t hI hP hstep).mpr hcond
        exact (ih (hkeep s a t hI hstep) hPt).mpr hrest

/-- Two conditions on steps that agree wherever the invariant holds admit the
same runs. -/
theorem stepsMeet_iff {I : σ → Prop} {cond' : σ → α → Prop}
    (hkeep : ∀ s a t, I s → step s a = some t → I t)
    (hagree : ∀ s a t, I s → step s a = some t → (cond s a ↔ cond' s a))
    {s : σ} (hI : I s) (as : List α) : StepsMeet step cond s as ↔ StepsMeet step cond' s as := by
  induction as generalizing s with
  | nil => exact Iff.rfl
  | cons a rest ih =>
      apply forall_congr'
      intro t
      apply imp_congr_right
      intro hstep
      exact and_congr (hagree s a t hI hstep) (ih (hkeep s a t hI hstep))

end Unx511.Machine
