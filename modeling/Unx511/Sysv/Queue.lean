import Mathlib.Tactic

/-!
The queue of a System V message queue, over any type of messages `M` with a
type tag in `τ`. All messages stand in one list in the order of their arrival.
`receive` is `msgrcv` with a positive type: it takes the oldest message of that
type. `ofType` is what a receiver of one type sees, and the lemmas say that it
is a FIFO queue of its own: a send appends to one of them, a receive takes the
head of one of them, and all others stay as they are.
-/

namespace Unx511.Sysv

variable {M τ : Type*} [DecidableEq τ] (typeOf : M → τ)

/-- The oldest message of type `ty` and the queue without it. -/
def receive (ty : τ) : List M → Option (M × List M)
  | [] => none
  | m :: rest =>
      if typeOf m = ty then some (m, rest)
      else (receive ty rest).map fun r => (r.1, m :: r.2)

def ofType (ty : τ) (queue : List M) : List M :=
  queue.filter fun m => typeOf m = ty

variable {typeOf}

theorem ofType_send_same {ty : τ} {m : M} (h : typeOf m = ty) (queue : List M) :
    ofType typeOf ty (queue ++ [m]) = ofType typeOf ty queue ++ [m] := by
  simp [ofType, h]

theorem ofType_send_other {ty : τ} {m : M} (h : typeOf m ≠ ty) (queue : List M) :
    ofType typeOf ty (queue ++ [m]) = ofType typeOf ty queue := by
  simp [ofType, h]

/-- The received message was somewhere in the queue with none of its type
before it, and the rest keeps its order. -/
theorem receive_split {ty : τ} {queue rest : List M} {m : M}
    (h : receive typeOf ty queue = some (m, rest)) :
    typeOf m = ty ∧ ∃ older younger, queue = older ++ m :: younger ∧
      rest = older ++ younger ∧ ∀ x ∈ older, typeOf x ≠ ty := by
  induction queue generalizing rest with
  | nil => cases h
  | cons x xs ih =>
      by_cases hx : typeOf x = ty
      · simp only [receive, hx, if_true, Option.some.injEq, Prod.mk.injEq] at h
        obtain ⟨rfl, rfl⟩ := h
        exact ⟨hx, [], xs, rfl, rfl, by simp⟩
      · simp only [receive, hx, if_false, Option.map_eq_some_iff, Prod.mk.injEq] at h
        obtain ⟨⟨y, ys⟩, hrec, rfl, rfl⟩ := h
        obtain ⟨hy, older, younger, rfl, hys, hold⟩ := ih hrec
        refine ⟨hy, x :: older, younger, rfl, by simp [hys], ?_⟩
        intro z hz
        rcases List.mem_cons.mp hz with rfl | hz
        · exact hx
        · exact hold z hz

theorem receive_type {ty : τ} {queue rest : List M} {m : M}
    (h : receive typeOf ty queue = some (m, rest)) : typeOf m = ty :=
  (receive_split h).1

theorem receive_mem {ty : τ} {queue rest : List M} {m : M}
    (h : receive typeOf ty queue = some (m, rest)) : m ∈ queue := by
  obtain ⟨_, older, younger, rfl, _, _⟩ := receive_split h
  simp

theorem mem_of_mem_receive {ty : τ} {queue rest : List M} {m x : M}
    (h : receive typeOf ty queue = some (m, rest)) (hx : x ∈ rest) : x ∈ queue := by
  obtain ⟨_, older, younger, rfl, rfl, _⟩ := receive_split h
  simp only [List.mem_append, List.mem_cons] at hx ⊢
  tauto

theorem receive_length {ty : τ} {queue rest : List M} {m : M}
    (h : receive typeOf ty queue = some (m, rest)) : queue.length = rest.length + 1 := by
  obtain ⟨_, older, younger, rfl, rfl, _⟩ := receive_split h
  simp only [List.length_append, List.length_cons]
  omega

/-- The receiver's own queue loses exactly its head. -/
theorem ofType_receive_same {ty : τ} {queue rest : List M} {m : M}
    (h : receive typeOf ty queue = some (m, rest)) :
    ofType typeOf ty queue = m :: ofType typeOf ty rest := by
  obtain ⟨hm, older, younger, rfl, rfl, hold⟩ := receive_split h
  have hnone : older.filter (fun x => typeOf x = ty) = [] := by
    simpa [List.filter_eq_nil_iff] using hold
  simp [ofType, hnone, hm]

theorem ofType_receive_other {ty other : τ} {queue rest : List M} {m : M}
    (hne : ty ≠ other) (h : receive typeOf ty queue = some (m, rest)) :
    ofType typeOf other queue = ofType typeOf other rest := by
  obtain ⟨rfl, older, younger, rfl, rfl, _⟩ := receive_split h
  simp [ofType, hne]

/-- `msgrcv` has to wait exactly when no message of its type is queued. -/
theorem receive_eq_none_iff {ty : τ} {queue : List M} :
    receive typeOf ty queue = none ↔ ∀ m ∈ queue, typeOf m ≠ ty := by
  induction queue with
  | nil => simp [receive]
  | cons x xs ih =>
      by_cases hx : typeOf x = ty
      · simp [receive, hx]
      · simp [receive, hx, ih]

end Unx511.Sysv
