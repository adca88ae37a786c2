import Mathlib.Logic.Relation
import Mathlib.Tactic

/-!
A relay: parties pass one message around. The message `first` is written out of
turn; from then on the addressee of the last message reads it and writes the
next one. The parties and the bodies of the messages are arbitrary, `valid` is
what every message must satisfy and `before` relates the bodies of two messages
of one sender in the order they are written.
-/

namespace Unx511.Machine

structure Letter (ι κ : Type*) where
  src : ι
  dest : ι
  body : κ

/-- The history of a relay. A letter is read by its addressee. -/
inductive RelayEvent (ι κ : Type*) where
  | written (m : Letter ι κ)
  | read (m : Letter ι κ)

/-- The letters written so far, and whether the last one has been read. -/
structure Relay (ι κ : Type*) where
  letters : List (Letter ι κ)
  taken : Bool

namespace Relay

variable {ι κ : Type*} {first : Letter ι κ} {valid : Letter ι κ → Prop} {before : κ → κ → Prop}

def empty : Relay ι κ := ⟨[], false⟩

inductive Move (first : Letter ι κ) (valid : Letter ι κ → Prop) (before : κ → κ → Prop) :
    Relay ι κ → Relay ι κ → Prop
  | start (hvalid : valid first) : Move first valid before empty ⟨[first], false⟩
  | take (ms : List (Letter ι κ)) (m : Letter ι κ) :
      Move first valid before ⟨ms ++ [m], false⟩ ⟨ms ++ [m], true⟩
  | pass (ms : List (Letter ι κ)) (m next : Letter ι κ) (hsrc : next.src = m.dest)
      (hvalid : valid next)
      (hbefore : ∀ k ∈ ms ++ [m], k.src = next.src → before k.body next.body) :
      Move first valid before ⟨ms ++ [m], true⟩ ⟨ms ++ [m] ++ [next], false⟩

/-- Every letter but the last is read once, before the next one is written. -/
def weave : List (Letter ι κ) → List (RelayEvent ι κ)
  | [] => []
  | [m] => [.written m]
  | m :: next :: ms => .written m :: .read m :: weave (next :: ms)

/-- The history of the relay. -/
def log (r : Relay ι κ) : List (RelayEvent ι κ) :=
  weave r.letters ++ (if r.taken then (r.letters.getLast?.map .read).toList else [])

theorem weave_append_pair (ms : List (Letter ι κ)) (m next : Letter ι κ) :
    weave (ms ++ [m] ++ [next]) = weave (ms ++ [m]) ++ [.read m, .written next] := by
  induction ms with
  | nil => rfl
  | cons k ms ih =>
      cases ms with
      | nil => rfl
      | cons l ms =>
          have hrest : weave (l :: (ms ++ [m] ++ [next])) =
              weave (l :: (ms ++ [m])) ++ [.read m, .written next] := ih
          change RelayEvent.written k :: .read k :: weave (l :: (ms ++ [m] ++ [next])) = _
          rw [hrest]
          rfl

theorem log_take (ms : List (Letter ι κ)) (m : Letter ι κ) :
    log ⟨ms ++ [m], true⟩ = log ⟨ms ++ [m], false⟩ ++ [.read m] := by
  simp [log]

theorem log_pass (ms : List (Letter ι κ)) (m next : Letter ι κ) :
    log ⟨ms ++ [m] ++ [next], false⟩ = log ⟨ms ++ [m], true⟩ ++ [.written next] := by
  rw [log_take]
  unfold log
  simp only [Bool.false_eq_true, if_false, List.append_nil]
  rw [weave_append_pair, List.append_assoc]
  rfl

theorem log_head? (m : Letter ι κ) (ms : List (Letter ι κ)) (taken : Bool) :
    (log ⟨m :: ms, taken⟩).head? = some (.written m) := by
  cases ms <;> rfl

/-- Once the last letter is read, its two events end the history. -/
theorem log_taken_split (ms : List (Letter ι κ)) (m : Letter ι κ) :
    ∃ front, log ⟨ms ++ [m], true⟩ = front ++ [.written m, .read m] := by
  rcases List.eq_nil_or_concat' ms with rfl | ⟨ms, k, rfl⟩
  · exact ⟨[], rfl⟩
  · refine ⟨log ⟨ms ++ [k], true⟩, ?_⟩
    rw [log_take, log_pass, List.append_assoc]
    rfl

theorem written_mem_log {r : Relay ι κ} {m : Letter ι κ} (hm : m ∈ r.letters) :
    .written m ∈ log r := by
  have hweave : ∀ ms : List (Letter ι κ), m ∈ ms → RelayEvent.written m ∈ weave ms := by
    intro ms
    induction ms with
    | nil => exact nofun
    | cons k ms ih =>
        intro hmem
        cases ms with
        | nil => simpa [weave] using hmem
        | cons l ms =>
            rcases List.mem_cons.mp hmem with rfl | hrest
            · simp [weave]
            · simp [weave, ih hrest]
  exact List.mem_append_left _ (hweave r.letters hm)

/-- What the moves keep. -/
structure WellFormed (first : Letter ι κ) (valid : Letter ι κ → Prop) (before : κ → κ → Prop)
    (r : Relay ι κ) : Prop where
  first : ∀ m ∈ r.letters.head?, m = first
  chain : r.letters.IsChain fun a b => b.src = a.dest
  valid : ∀ m ∈ r.letters, valid m
  ordered : r.letters.Pairwise fun a b => a.src = b.src → before a.body b.body

theorem WellFormed.move {r r' : Relay ι κ} (h : WellFormed first valid before r)
    (hmove : Move first valid before r r') : WellFormed first valid before r' := by
  cases hmove with
  | start hvalid =>
      refine ⟨?_, List.isChain_singleton _, ?_, List.pairwise_singleton _ _⟩
      · rintro m ⟨⟩
        rfl
      · simpa using hvalid
  | take ms m => exact ⟨h.first, h.chain, h.valid, h.ordered⟩
  | pass ms m next hsrc hvalid hbefore =>
      refine ⟨?_, ?_, ?_, ?_⟩
      · intro k hk
        apply h.first
        rw [List.head?_append_of_ne_nil] at hk
        · exact hk
        · simp
      · apply List.isChain_append.mpr
        refine ⟨h.chain, List.isChain_singleton next, ?_⟩
        intro a ha b hb
        rw [List.getLast?_concat] at ha
        cases ha
        cases hb
        exact hsrc
      · intro k hk
        rcases List.mem_append.mp hk with hold | hnew
        · exact h.valid k hold
        · rw [List.mem_singleton.mp hnew]
          exact hvalid
      · apply List.pairwise_append.mpr
        refine ⟨h.ordered, List.pairwise_singleton _ next, ?_⟩
        intro k hk l hl hkl
        rw [List.mem_singleton.mp hl] at hkl ⊢
        exact hbefore k hk hkl

/-- Every relay that plays from the start is well formed. -/
theorem wellFormed_of_moves {r : Relay ι κ}
    (h : Relation.ReflTransGen (Move first valid before) empty r) :
    WellFormed first valid before r := by
  induction h with
  | refl => exact ⟨nofun, List.isChain_nil, nofun, List.Pairwise.nil⟩
  | tail _ hmove ih => exact ih.move hmove

end Relay

end Unx511.Machine
