import Unx511.Assignment1.Part4

/-!
The order of the output. The three waiting loops of `main` stand in the order of
the lines, but the handler prints a line when the signal arrives, whatever loop
`main` is in. The lines come in the order of the loops on exactly those runs on
which the signals are delivered in that order.
-/

namespace Unx511.Assignment1.Part4

open Unx511.Machine

namespace Await

/-- The loops that `main` leaves before it comes to this one. -/
def before : Await → List Await
  | memoryWarning => []
  | worker1 => [memoryWarning]
  | worker2 => [memoryWarning, worker1]

/-- The line that is printed when the flag is set. -/
def line : Await → String
  | memoryWarning => "⚠️ Worker exceeded memory limit!\n"
  | worker1 => "✅ Worker 1 completed.\n"
  | worker2 => "✅ Worker 2 completed.\n"

end Await

def doneLine : String := "🔁 Parent done waiting.\n"

/-- What follows "Binary files created." in the desired output. -/
def expectedOutput : List String :=
  [Await.memoryWarning.line, Await.worker1.line, Await.worker2.line, doneLine]

/-- `main` came to its `return 0`. After a failed `fork` it exits too, with a
worker that was never born. -/
def MainReturned (s : State) : Prop :=
  s.parent = .exited ∧ ∀ i, (s.worker i).born = true

/-- The SIGUSR2 that is delivered is not early: `main` would by now have left the
loops in front of the one that waits for its sender. -/
def InWaitingOrder (s : State) : Action → Prop
  | .deliverUsr2 => ∀ loop : Await,
      s.pendingUsr2.bind (senderIndex s.workerPids) = some loop.sender →
        ∀ l ∈ loop.before, s.flag l = true
  | _ => True

instance (s : State) (a : Action) : Decidable (InWaitingOrder s a) := by
  unfold InWaitingOrder
  split <;> infer_instance

/-! What one step prints. -/

/-- The handler sets a flag that was not set, and prints its line. -/
structure Prints (s t : State) (loop : Await) : Prop where
  stdout : t.stdout = s.stdout ++ [loop.line]
  unset : s.flag loop = false
  set : t.flag loop = true
  others : ∀ l, l ≠ loop → t.flag l = s.flag l

/-- Nothing is printed and no flag changes. -/
structure Silent (s t : State) : Prop where
  stdout : t.stdout = s.stdout
  flag : ∀ l, t.flag l = s.flag l

theorem Silent.of_fields {s t : State} (hstdout : t.stdout = s.stdout)
    (hwarned : t.memoryWarned = s.memoryWarned) (hcompleted : t.completed = s.completed) :
    Silent s t := by
  refine ⟨hstdout, fun l => ?_⟩
  cases l with
  | memoryWarning => exact hwarned
  | worker1 | worker2 => exact congrFun hcompleted _

theorem handleUsr1_prints (pid : Nat) (s : State) :
    Silent s (handleUsr1 pid s) ∨ Prints s (handleUsr1 pid s) .memoryWarning := by
  unfold handleUsr1
  split
  case isTrue h =>
    right
    refine ⟨rfl, h.2, rfl, fun l hl => ?_⟩
    cases l with
    | memoryWarning => exact absurd rfl hl
    | worker1 | worker2 => rfl
  case isFalse => exact .inl ⟨rfl, fun _ => rfl⟩

theorem handleUsr2_prints (pid : Nat) (s : State) :
    Silent s (handleUsr2 pid s) ∨
      ∃ loop : Await, loop ≠ .memoryWarning ∧
        senderIndex s.workerPids pid = some loop.sender ∧ Prints s (handleUsr2 pid s) loop := by
  unfold handleUsr2
  split
  case h_2 => exact .inl ⟨rfl, fun _ => rfl⟩
  case h_1 i hsender =>
    split
    case isTrue => exact .inl ⟨rfl, fun _ => rfl⟩
    case isFalse hunset =>
      have hunset : s.completed i = false := by simpa using hunset
      fin_cases i
      · right
        refine ⟨.worker1, nofun, hsender, rfl, hunset, rfl, fun l hl => ?_⟩
        cases l with
        | worker1 => exact absurd rfl hl
        | memoryWarning | worker2 => rfl
      · right
        refine ⟨.worker2, nofun, hsender, rfl, hunset, rfl, fun l hl => ?_⟩
        cases l with
        | worker2 => exact absurd rfl hl
        | memoryWarning | worker1 => rfl
      · left
        refine ⟨List.append_nil _, fun l => ?_⟩
        cases l with
        | memoryWarning | worker1 | worker2 => rfl

theorem sendUsr1_silent (i : Fin 3) (s : State) : Silent s (sendUsr1 i s) := by
  unfold sendUsr1
  split
  · exact .of_fields rfl rfl rfl
  · exact .of_fields rfl rfl rfl

theorem sendUsr2_silent (i : Fin 3) (s : State) : Silent s (sendUsr2 i s) := by
  unfold sendUsr2
  split
  · exact .of_fields rfl rfl rfl
  · exact .of_fields rfl rfl rfl

/-! What holds on every run, in whatever order the lines come. -/

/-- The loops that `main` has left when it is here. -/
def ParentPc.behind : ParentPc → List Await
  | .test loop | .enter loop | .suspended loop => loop.before
  | .wait _ | .report => [.memoryWarning, .worker1, .worker2]
  | _ => []

/-- The number of workers that are born when `main` is here. -/
def ParentPc.forked : ParentPc → Nat
  | .block => 0
  | .fork i => i
  | _ => 3

/-- The number of workers that `main` has waited for when it is here. -/
def ParentPc.reaped : ParentPc → Nat
  | .wait i => i
  | .report => 3
  | _ => 0

structure Printed (s : State) : Prop where
  line : ∀ loop : Await, loop.line ∈ s.stdout ↔ s.flag loop = true
  behind : ∀ loop ∈ s.parent.behind, s.flag loop = true
  forking : ∀ i, s.parent = .fork i → i < 3
  born : s.parent ≠ .exited → ∀ i, (s.worker i).born = true ↔ i.val < s.parent.forked
  reaped : ∀ i : Fin 3, i.val < s.parent.reaped → (s.worker i).live = false
  done : doneLine ∈ s.stdout → s.parent = .exited ∧ ∀ i, (s.worker i).terminated = true
  returned : MainReturned s → doneLine ∈ s.stdout

theorem Await.line_injective {l loop : Await} (h : l.line = loop.line) : l = loop := by
  revert h
  cases l <;> cases loop <;> simp [Await.line]

theorem Await.sender_injective {l loop : Await} (h : l.sender = loop.sender) : l = loop := by
  revert h
  cases l <;> cases loop <;> simp [Await.sender]

theorem Await.line_ne_doneLine (loop : Await) : loop.line ≠ doneLine := by
  cases loop <;> simp [Await.line, doneLine]

theorem printed_initial : Printed State.initial where
  line := fun loop => by cases loop <;> simp [State.initial, State.flag]
  behind := nofun
  forking := nofun
  born := fun _ _ => ⟨nofun, nofun⟩
  reaped := nofun
  done := nofun
  returned := nofun

theorem WorkerPc.terminated_of_not_live {pc : WorkerPc} (hborn : pc.born = true)
    (hlive : pc.live = false) : pc.terminated = true := by
  simpa [WorkerPc.live, hborn] using hlive

namespace Printed

variable {s t : State}

/-- The handler has printed a line; `main` and the workers are where they were. -/
theorem prints (h : Printed s) {loop : Await} (hprints : Prints s t loop)
    (hparent : t.parent = s.parent) (hworker : t.worker = s.worker)
    (halive : s.parent ≠ .exited) : Printed t := by
  have hflag : ∀ l, s.flag l = true → t.flag l = true := by
    intro l hl
    rcases eq_or_ne l loop with rfl | hne
    · exact hprints.set
    · exact (hprints.others l hne).trans hl
  refine ⟨fun l => ?_, ?_, ?_, ?_, ?_, ?_, ?_⟩
  · rw [hprints.stdout, List.mem_append, List.mem_singleton, h.line l]
    rcases eq_or_ne l loop with rfl | hne
    · simp [hprints.set]
    · have hline : l.line ≠ loop.line := fun heq => hne (Await.line_injective heq)
      simp [hprints.others l hne, hline]
  · intro l hl
    rw [hparent] at hl
    exact hflag l (h.behind l hl)
  · rw [hparent]
    exact h.forking
  · rw [hparent, hworker]
    exact h.born
  · rw [hparent, hworker]
    exact h.reaped
  · intro hdone
    rw [hprints.stdout, List.mem_append, List.mem_singleton] at hdone
    rcases hdone with hdone | heq
    · exact absurd (h.done hdone).1 halive
    · exact absurd heq.symm (Await.line_ne_doneLine loop)
  · intro hreturned
    exact absurd (hparent.symm.trans hreturned.1) halive

/-- `main` moves on. -/
theorem goto (h : Printed s) (hsilent : Silent s t) (hworker : t.worker = s.worker)
    (hfrom : s.parent ≠ .exited) (hto : t.parent ≠ .exited)
    (hforked : t.parent.forked = s.parent.forked)
    (hbehind : ∀ loop ∈ t.parent.behind, s.flag loop = true)
    (hreaped : ∀ i : Fin 3, i.val < t.parent.reaped → (s.worker i).live = false)
    (hforking : ∀ i, t.parent = .fork i → i < 3) : Printed t := by
  refine ⟨fun l => ?_, fun l hl => ?_, hforking, fun _ i => ?_, fun i hi => ?_, fun hdone => ?_,
    fun hreturned => ?_⟩
  · rw [hsilent.stdout, hsilent.flag l]
    exact h.line l
  · rw [hsilent.flag l]
    exact hbehind l hl
  · rw [hworker, hforked]
    exact h.born hfrom i
  · rw [hworker]
    exact hreaped i hi
  · rw [hsilent.stdout] at hdone
    exact absurd (h.done hdone).1 hfrom
  · exact absurd hreturned.1 hto

/-- `main` stays where it is, and no worker is born. -/
theorem stay (h : Printed s) (hsilent : Silent s t) (hparent : t.parent = s.parent)
    (hborn : ∀ i, (t.worker i).born = (s.worker i).born)
    (hlive : ∀ i, (s.worker i).live = false → (t.worker i).live = false)
    (hterminated : ∀ i, (s.worker i).terminated = true → (t.worker i).terminated = true) :
    Printed t := by
  refine ⟨fun l => ?_, fun l hl => ?_, ?_, ?_, fun i hi => ?_, fun hdone => ?_,
    fun hreturned => ?_⟩
  · rw [hsilent.stdout, hsilent.flag l]
    exact h.line l
  · rw [hsilent.flag l]
    exact h.behind l (hparent ▸ hl)
  · rw [hparent]
    exact h.forking
  · simp only [hparent, hborn]
    exact h.born
  · exact hlive i (h.reaped i (hparent ▸ hi))
  · rw [hsilent.stdout] at hdone
    obtain ⟨hexited, hall⟩ := h.done hdone
    exact ⟨hparent.trans hexited, fun i => hterminated i (hall i)⟩
  · rw [hsilent.stdout]
    exact h.returned ⟨hparent.symm.trans hreturned.1, fun i => (hborn i).symm.trans (hreturned.2 i)⟩

/-- A worker that is alive takes a step. -/
theorem worker (h : Printed s) {i : Fin 3} {pc : WorkerPc} (hsilent : Silent s t)
    (hparent : t.parent = s.parent) (hworker : t.worker = Function.update s.worker i pc)
    (hlive : (s.worker i).live = true) (hborn : pc.born = true) : Printed t := by
  have hlive : (s.worker i).born = true ∧ (s.worker i).terminated = false := by
    simpa [WorkerPc.live] using hlive
  refine h.stay hsilent hparent ?_ ?_ ?_
  · intro j
    rw [hworker]
    rcases eq_or_ne j i with rfl | hne
    · rw [Function.update_self, hborn, hlive.1]
    · rw [Function.update_of_ne hne]
  · intro j hj
    rw [hworker]
    rcases eq_or_ne j i with rfl | hne
    · simp [WorkerPc.live, hlive.1, hlive.2] at hj
    · rwa [Function.update_of_ne hne]
  · intro j hj
    rw [hworker]
    rcases eq_or_ne j i with rfl | hne
    · rw [hlive.2] at hj
      cases hj
    · rwa [Function.update_of_ne hne]

theorem fork (h : Printed s) {i : Nat} (hi : i < 3) (hpc : s.parent = .fork i) (pid : Nat) :
    Printed { s with
      workerPids := Function.update s.workerPids ⟨i, hi⟩ pid
      worker := Function.update s.worker ⟨i, hi⟩ .starting
      parent := if i + 1 < 3 then .fork (i + 1) else .unblock } := by
  have halive : s.parent ≠ .exited := by rw [hpc]; nofun
  have hdone : doneLine ∉ s.stdout := fun hdone => halive (h.done hdone).1
  have hborn := h.born halive
  rw [hpc] at hborn
  have hforked : (if i + 1 < 3 then ParentPc.fork (i + 1) else .unblock).forked = i + 1 := by
    split
    · rfl
    · change 3 = i + 1
      omega
  refine ⟨h.line, ?_, ?_, fun _ j => ?_, ?_, fun hmem => absurd hmem hdone, fun hreturned => ?_⟩
  · intro l hl
    split at hl <;> cases hl
  · intro j hj
    split at hj
    case isTrue hlt =>
      cases hj
      exact hlt
    case isFalse => cases hj
  · rw [hforked]
    rcases eq_or_ne j ⟨i, hi⟩ with rfl | hne
    · simp [WorkerPc.born]
    · have hne' : j.val ≠ i := fun heq => hne (Fin.ext heq)
      have hbefore := hborn j
      simp only [Function.update_of_ne hne, hbefore, ParentPc.forked]
      omega
  · intro j hj
    split at hj <;> cases hj
  · have hexited := hreturned.1
    split at hexited <;> cases hexited

theorem forkFails (h : Printed s) {i : Nat} (hpc : s.parent = .fork i) :
    Printed { s with parent := .exited } := by
  have halive : s.parent ≠ .exited := by rw [hpc]; nofun
  have hi : i < 3 := h.forking i hpc
  have hunborn : (s.worker ⟨i, hi⟩).born ≠ true := by
    rw [Ne, h.born halive, hpc]
    exact Nat.lt_irrefl i
  refine ⟨h.line, nofun, nofun, fun hne => absurd rfl hne, nofun, fun hdone => ?_,
    fun hreturned => ?_⟩
  · exact absurd (h.done hdone).1 halive
  · exact absurd (hreturned.2 ⟨i, hi⟩) hunborn

theorem report (h : Printed s) (hpc : s.parent = .report) :
    Printed { s with parent := .exited, stdout := s.stdout ++ [doneLine] } := by
  have halive : s.parent ≠ .exited := by rw [hpc]; nofun
  have hterminated : ∀ i, (s.worker i).terminated = true := by
    intro i
    have hborn : (s.worker i).born = true := by
      rw [h.born halive, hpc]
      exact i.isLt
    have hlive : (s.worker i).live = false := h.reaped i (by rw [hpc]; exact i.isLt)
    exact WorkerPc.terminated_of_not_live hborn hlive
  refine ⟨fun l => ?_, nofun, nofun, fun hne => absurd rfl hne, nofun, fun _ => ⟨rfl, hterminated⟩,
    fun _ => by simp⟩
  change l.line ∈ s.stdout ++ [doneLine] ↔ s.flag l = true
  have hne := Await.line_ne_doneLine l
  simpa [hne] using h.line l

theorem behind_next (h : Printed s) {loop : Await} (hpc : s.parent = .test loop)
    (hflag : s.flag loop = true) : ∀ l ∈ loop.next.behind, s.flag l = true := by
  have hbefore : ∀ l ∈ loop.before, s.flag l = true := by
    have hbehind := h.behind
    rw [hpc] at hbehind
    exact hbehind
  cases loop with
  | memoryWarning => simpa [Await.next, ParentPc.behind, Await.before] using hflag
  | worker1 => simpa [Await.next, ParentPc.behind, Await.before, hflag] using hbefore
  | worker2 => simpa [Await.next, ParentPc.behind, Await.before, hflag] using hbefore

/-- A reaped worker is dead, and those waited for before it too. -/
theorem reaped_next (h : Printed s) {i : Nat} (hi : i < 3) (hpc : s.parent = .wait i)
    (hreaped : s.reaped (s.workerPids ⟨i, hi⟩) = true) :
    ∀ j : Fin 3, j.val < i + 1 → (s.worker j).live = false := by
  intro j hj
  rcases Nat.lt_or_eq_of_le (Nat.le_of_lt_succ hj) with hlt | heq
  · exact h.reaped j (by rw [hpc]; exact hlt)
  · have hall := of_decide_eq_true hreaped
    exact hall j (congrArg s.workerPids (Fin.ext heq))

theorem move {a : Action} (h : Printed s) (hmove : Move s a t) : Printed t := by
  cases hmove with
  | block hpc =>
      refine h.goto (.of_fields rfl rfl rfl) rfl ?_ nofun ?_ nofun nofun fun i hi => ?_
      · rw [hpc]
        nofun
      · rw [hpc]
        rfl
      · cases hi
        exact Nat.zero_lt_succ 2
  | unblock hpc =>
      refine h.goto (.of_fields rfl rfl rfl) rfl ?_ nofun ?_ nofun nofun nofun
      · rw [hpc]
        nofun
      · rw [hpc]
        rfl
  | @pass loop hpc hflag =>
      refine h.goto (.of_fields rfl rfl rfl) rfl ?_ ?_ ?_ (h.behind_next hpc hflag) ?_ ?_
      · rw [hpc]
        nofun
      · cases loop <;> nofun
      · rw [hpc]
        cases loop <;> rfl
      · cases loop <;> nofun
      · cases loop <;> nofun
  | miss hpc _ | suspend hpc | wake _ hpc =>
      have hbehind := h.behind
      rw [hpc] at hbehind
      refine h.goto (.of_fields rfl rfl rfl) rfl ?_ nofun ?_ hbehind nofun nofun
      · rw [hpc]
        nofun
      · rw [hpc]
        rfl
  | @reap i hi hpc hreaped =>
      have hbehind := h.behind
      have hreaped := h.reaped_next hi hpc hreaped
      rw [hpc] at hbehind
      refine h.goto (.of_fields rfl rfl rfl) rfl ?_ nofun ?_ hbehind hreaped nofun
      · rw [hpc]
        nofun
      · rw [hpc]
        rfl
  | @reapedAll i hi hpc =>
      have hbehind := h.behind
      have hreaped := h.reaped
      rw [hpc] at hbehind hreaped
      refine h.goto (.of_fields rfl rfl rfl) rfl ?_ nofun ?_ hbehind (fun j _ => hreaped j ?_) nofun
      · rw [hpc]
        nofun
      · rw [hpc]
        rfl
      · have hj := j.isLt
        change j.val < i
        omega
  | report hpc => exact h.report hpc
  | fork hi hpc _ _ => exact h.fork hi hpc _
  | forkFails hpc => exact h.forkFails hpc
  | @deliverUsr1 pid hdeliverable _ =>
      have halive := (deliverable_iff.mp hdeliverable).2.2
      obtain ⟨_, _, _, hworker, hparent⟩ := handleUsr1_frame pid s
      rcases handleUsr1_prints pid s with hsilent | hprints
      · exact h.stay ⟨hsilent.stdout, hsilent.flag⟩ hparent (fun i => by rw [hworker])
          (fun i => by rw [hworker]; exact id) fun i => by rw [hworker]; exact id
      · exact h.prints ⟨hprints.stdout, hprints.unset, hprints.set, hprints.others⟩ hparent
          hworker halive
  | @deliverUsr2 pid hdeliverable _ =>
      have halive := (deliverable_iff.mp hdeliverable).2.2
      obtain ⟨_, hworker, hparent⟩ := handleUsr2_frame pid s
      rcases handleUsr2_prints pid s with hsilent | ⟨loop, _, _, hprints⟩
      · exact h.stay ⟨hsilent.stdout, hsilent.flag⟩ hparent (fun i => by rw [hworker])
          (fun i => by rw [hworker]; exact id) fun i => by rw [hworker]; exact id
      · exact h.prints ⟨hprints.stdout, hprints.unset, hprints.set, hprints.others⟩ hparent
          hworker halive
  | handlerReturn _ _ =>
      exact h.stay (.of_fields rfl rfl rfl) rfl (fun _ => rfl) (fun _ => id) fun _ => id
  | start hpc | fail hpc | exit hpc =>
      exact h.worker (.of_fields rfl rfl rfl) rfl rfl (by rw [hpc]; rfl) rfl
  | @warn i hpc =>
      have hsilent := sendUsr1_silent i s
      obtain ⟨_, _, _, hworker, hparent⟩ := sendUsr1_frame i s
      have hreading : Function.update (sendUsr1 i s).worker i (.reading true) =
          Function.update s.worker i (.reading true) := by
        rw [hworker]
      exact h.worker ⟨hsilent.stdout, hsilent.flag⟩ hparent hreading (by rw [hpc]; rfl) rfl
  | @complete i _ hpc =>
      have hsilent := sendUsr2_silent i s
      obtain ⟨_, _, hworker, hparent⟩ := sendUsr2_frame i s
      have hfinishing : Function.update (sendUsr2 i s).worker i .finishing =
          Function.update s.worker i .finishing := by
        rw [hworker]
      exact h.worker ⟨hsilent.stdout, hsilent.flag⟩ hparent hfinishing (by rw [hpc]; rfl) rfl

end Printed

/-! What was printed is what is expected so far. -/

theorem prefix_cases {out : List String} (h : out <+: expectedOutput) :
    out = [] ∨ out = [Await.memoryWarning.line] ∨
      out = [Await.memoryWarning.line, Await.worker1.line] ∨
      out = [Await.memoryWarning.line, Await.worker1.line, Await.worker2.line] ∨
      out = expectedOutput := by
  have hmem := (List.mem_inits out expectedOutput).mpr h
  simpa only [expectedOutput, List.inits, List.mem_cons, List.map_cons, List.map_nil,
    List.not_mem_nil, or_false] using hmem

theorem eq_of_done {out : List String} (h : out <+: expectedOutput) (hdone : doneLine ∈ out) :
    out = expectedOutput := by
  rcases prefix_cases h with rfl | rfl | rfl | rfl | rfl
  · cases hdone
  · simp [Await.line, doneLine] at hdone
  · simp [Await.line, doneLine] at hdone
  · simp [Await.line, doneLine] at hdone
  · rfl

theorem printed_cases {out : List String} (h : out <+: expectedOutput) (hdone : doneLine ∉ out) :
    out = [] ∨ out = [Await.memoryWarning.line] ∨
      out = [Await.memoryWarning.line, Await.worker1.line] ∨
      out = [Await.memoryWarning.line, Await.worker1.line, Await.worker2.line] := by
  have hshort : out ≠ expectedOutput := by
    rintro rfl
    simp [expectedOutput] at hdone
  simpa [hshort] using prefix_cases h

/-- The flags are set in the order of the loops. -/
theorem Printed.before_of_flag {s : State} (h : Printed s) (hout : s.stdout <+: expectedOutput)
    (hdone : doneLine ∉ s.stdout) {loop : Await} (hflag : s.flag loop = true) :
    ∀ l ∈ loop.before, s.flag l = true := by
  intro l hl
  rw [← h.line] at hflag ⊢
  rcases printed_cases hout hdone with hout | hout | hout | hout <;> rw [hout] at hflag ⊢ <;>
    revert hl hflag <;> cases loop <;> cases l <;> simp [Await.before, Await.line]

/-- The next line is the expected one when the flags in front of it are set. -/
theorem Printed.prefix_append {s : State} (h : Printed s) (hout : s.stdout <+: expectedOutput)
    (hdone : doneLine ∉ s.stdout) {loop : Await} (hunset : s.flag loop = false) :
    s.stdout ++ [loop.line] <+: expectedOutput ↔ ∀ l ∈ loop.before, s.flag l = true := by
  have hnew : loop.line ∉ s.stdout := by
    rw [h.line, hunset]
    nofun
  simp only [← h.line]
  rcases printed_cases hout hdone with hout | hout | hout | hout <;> rw [hout] at hnew ⊢ <;>
    revert hnew <;> cases loop <;> simp only [Await.before, List.forall_mem_cons] <;>
    simp [Await.line, expectedOutput, doneLine]

/-- One step keeps the output as expected so far exactly when no SIGUSR2 is early. -/
theorem Printed.step_exact {s t : State} {a : Action} (h : Printed s)
    (hout : s.stdout <+: expectedOutput) (hmove : Move s a t) :
    t.stdout <+: expectedOutput ↔ InWaitingOrder s a := by
  have hsame : ∀ {u : State}, Silent s u → u.stdout <+: expectedOutput := by
    intro u hsilent
    rw [hsilent.stdout]
    exact hout
  cases hmove with
  | @deliverUsr2 pid hdeliverable hpending =>
      have hdone : doneLine ∉ s.stdout := fun hdone =>
        (deliverable_iff.mp hdeliverable).2.2 (h.done hdone).1
      change (handleUsr2 pid s).stdout <+: expectedOutput ↔ ∀ loop : Await,
        s.pendingUsr2.bind (senderIndex s.workerPids) = some loop.sender →
          ∀ l ∈ loop.before, s.flag l = true
      rw [hpending, Option.bind_some]
      rcases handleUsr2_prints pid s with hsilent | ⟨loop, _, hsender, hprints⟩
      · -- the completion of this worker was handled before
        refine iff_of_true (hsame hsilent) fun loop hsender => ?_
        cases loop with
        | memoryWarning => nofun
        | worker1 | worker2 =>
            have hset := handleUsr2_completed (s := s) (.inr hsender)
            exact h.before_of_flag hout hdone ((hsilent.flag _).symm.trans hset)
      · rw [hprints.stdout, h.prefix_append hout hdone hprints.unset, hsender]
        constructor
        · intro hbefore l hl
          rwa [← Await.sender_injective (Option.some.inj hl)]
        · intro hall
          exact hall loop rfl
  | @deliverUsr1 pid hdeliverable _ =>
      have hdone : doneLine ∉ s.stdout := fun hdone =>
        (deliverable_iff.mp hdeliverable).2.2 (h.done hdone).1
      refine iff_of_true ?_ trivial
      change (handleUsr1 pid s).stdout <+: expectedOutput
      rcases handleUsr1_prints pid s with hsilent | hprints
      · exact hsame hsilent
      · rw [hprints.stdout, h.prefix_append hout hdone hprints.unset]
        nofun
  | report hpc =>
      have hdone : doneLine ∉ s.stdout := fun hdone => by
        have hexited := (h.done hdone).1
        rw [hpc] at hexited
        cases hexited
      have hbehind := h.behind
      rw [hpc] at hbehind
      refine iff_of_true ?_ trivial
      change s.stdout ++ [doneLine] <+: expectedOutput
      have hlast : Await.worker2.line ∈ s.stdout := (h.line _).mpr (hbehind _ (by decide))
      rcases printed_cases hout hdone with heq | heq | heq | heq
      · simp [heq] at hlast
      · simp [heq, Await.line] at hlast
      · simp [heq, Await.line] at hlast
      · rw [heq]
        exact List.prefix_refl _
  | @warn i _ => exact iff_of_true (hsame (u := sendUsr1 i s) (sendUsr1_silent i s)) trivial
  | @complete i _ _ => exact iff_of_true (hsame (u := sendUsr2 i s) (sendUsr2_silent i s)) trivial
  | block _ | unblock _ | pass _ _ | miss _ _ | suspend _ | reap _ _ _ | reapedAll _ _
  | fork _ _ _ _
  | forkFails _ | wake _ _ | handlerReturn _ _ | start _ | fail _ | exit _ =>
      exact iff_of_true hout trivial

/-- What is printed stays printed. -/
theorem Move.stdout_grows {s t : State} {a : Action} (h : Move s a t) : s.stdout <+: t.stdout := by
  have hsame : ∀ {u : State}, Silent s u → s.stdout <+: u.stdout := by
    intro u hsilent
    rw [hsilent.stdout]
  have hprinted : ∀ {u : State} {loop : Await}, Prints s u loop → s.stdout <+: u.stdout := by
    intro u loop hprints
    rw [hprints.stdout]
    exact List.prefix_append ..
  cases h with
  | @deliverUsr1 pid _ _ =>
      rcases handleUsr1_prints pid s with hsilent | hprints
      · exact hsame (u := handleUsr1 pid s) hsilent
      · exact hprinted (u := handleUsr1 pid s) hprints
  | @deliverUsr2 pid _ _ =>
      rcases handleUsr2_prints pid s with hsilent | ⟨loop, _, _, hprints⟩
      · exact hsame (u := handleUsr2 pid s) hsilent
      · exact hprinted (u := handleUsr2 pid s) hprints
  | @warn i _ => exact hsame (u := sendUsr1 i s) (sendUsr1_silent i s)
  | @complete i _ _ => exact hsame (u := sendUsr2 i s) (sendUsr2_silent i s)
  | report _ => exact List.prefix_append ..
  | block _ | unblock _ | pass _ _ | miss _ _ | suspend _ | reap _ _ _ | reapedAll _ _
  | fork _ _ _ _
  | forkFails _ | wake _ _ | handlerReturn _ _ | start _ | fail _ | exit _ =>
      exact List.prefix_refl _

theorem printed_of_run {s : State} {acts : List Action}
    (hrun : run step State.initial acts = some s) : Printed s :=
  (Reaches.of_any_run acts hrun).invariant printed_initial fun _ _ _ hu _ hstep =>
    hu.move (step_move hstep)

/-- The last line is out: then all workers have terminated. -/
def DoneLast (s : State) : Prop :=
  doneLine ∈ s.stdout → ∀ i, (s.worker i).terminated = true

theorem doneLast_of_run (acts : List Action) : StatesMeet step DoneLast State.initial acts := by
  have hprinted : StatesMeet step Printed State.initial acts :=
    .of_invariant (fun _ _ _ h hstep => h.move (step_move hstep)) printed_initial acts
  exact hprinted.mono fun _ h hdone => (h.done hdone).2

/-- The output of a run to the end of `main` is the expected one exactly when no
SIGUSR2 was delivered early on it. -/
theorem output_order_iff {s : State} {acts : List Action}
    (hrun : run step State.initial acts = some s) (hreturned : MainReturned s) :
    (s.stdout = expectedOutput ∧ StatesMeet step DoneLast State.initial acts) ↔
      StepsMeet step InWaitingOrder State.initial acts := by
  have hprinted : Printed s := printed_of_run hrun
  have hexact : StatesMeet step (fun u => u.stdout <+: expectedOutput) State.initial acts ↔
      StepsMeet step InWaitingOrder State.initial acts :=
    statesMeet_iff_stepsMeet (I := Printed) (fun _ _ _ h hstep => h.move (step_move hstep))
      (fun _ _ _ h hout hstep => h.step_exact hout (step_move hstep)) printed_initial
      List.nil_prefix acts
  rw [← hexact]
  constructor
  · rintro ⟨hout, _⟩
    refine .of_last (fun _ _ _ hstep hpre => ?_) hrun ?_
    · exact (step_move hstep).stdout_grows.trans hpre
    · rw [hout]
  · intro hmeet
    refine ⟨?_, doneLast_of_run acts⟩
    have hpre : s.stdout <+: expectedOutput := hmeet.last hrun
    exact eq_of_done hpre (hprinted.returned hreturned)

/-- The workers finish one after the other. -/
def demo (first second third : Fin 3) : List Action :=
  [.parent, .fork 101, .fork 102, .fork 103, .parent, .start first, .start second, .start third,
    .warn third, .deliverUsr1, .handlerReturn] ++
  ([first, second, third].flatMap fun i => [.complete i, .deliverUsr2, .handlerReturn, .exit i]) ++
  List.replicate 8 .parent

theorem output_order_first_to_last :
    ∃ s, run step State.initial (demo 0 1 2) = some s ∧ MainReturned s ∧
      s.stdout = expectedOutput := by
  have hmeet : StepsMeet step InWaitingOrder State.initial (demo 0 1 2) := by decide
  have hreturned : ∀ s, run step State.initial (demo 0 1 2) = some s → MainReturned s := by
    rintro s ⟨⟩
    exact ⟨rfl, by decide⟩
  exact ⟨_, rfl, hreturned _ rfl, ((output_order_iff rfl (hreturned _ rfl)).mpr hmeet).1⟩

/-- Worker 2 has the smaller file. -/
theorem output_out_of_order :
    ∃ s, run step State.initial (demo 1 0 2) = some s ∧ MainReturned s ∧
      s.stdout ≠ expectedOutput ∧
      s.stdout = ["⚠️ Worker exceeded memory limit!\n", "✅ Worker 2 completed.\n",
        "✅ Worker 1 completed.\n", "🔁 Parent done waiting.\n"] := by
  have hne : ["⚠️ Worker exceeded memory limit!\n", "✅ Worker 2 completed.\n",
      "✅ Worker 1 completed.\n", "🔁 Parent done waiting.\n"] ≠ expectedOutput := by
    simp [expectedOutput, Await.line]
  exact ⟨_, rfl, ⟨rfl, by decide⟩, hne, rfl⟩

end Unx511.Assignment1.Part4
