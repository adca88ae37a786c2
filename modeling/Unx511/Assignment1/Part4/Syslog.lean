import Unx511.Assignment1.Part4.Output
import Unx511.Text.PrefixCode

/-!
`syslog.log`, which `main` and the signal handler write with `dhsb_log_event`. A message has
no newline behind it, so the file is one line of messages; other executions of the program
may be writing theirs at the same time. What the handler logs is what it has seen, each once
and in the order on the terminal. The file is one sequence of messages as long as no `write`
is cut short, and has everything that was seen when each message was stored whole.
-/

namespace Unx511.Assignment1.Part4.Syslog

open Unx511.Machine

/-- The calls of `dhsb_log_event`. -/
inductive Event where
  | newExecution
  | memoryLimit
  | completed (i : Fin 3)
  deriving DecidableEq, Repr

def Event.message : Event → List Char
  | .newExecution => "--- New Execution ---".toList
  | .memoryLimit => "Worker 3 exceeded memory limit!".toList
  | .completed 0 => "Worker 1 completed its task.".toList
  | .completed 1 => "Worker 2 completed its task.".toList
  | .completed 2 => "Worker 3 completed its task.".toList

def Event.all : List Event :=
  .newExecution :: .memoryLimit :: (List.finRange 3).map .completed

theorem Event.mem_all (e : Event) : e ∈ Event.all := by
  cases e with
  | newExecution | memoryLimit => decide
  | completed i => fin_cases i <;> decide

/-- No message begins another one. -/
def messages : Text.PrefixCode Event Char where
  text := Event.message
  nonempty := by
    have hall : ∀ e ∈ Event.all, e.message ≠ [] := by decide
    exact fun e => hall e e.mem_all
  prefixFree := by
    have hall : ∀ d ∈ Event.all, ∀ e ∈ Event.all,
        d.message.isPrefixOf e.message = true → d = e := by decide
    intro d e h
    exact hall d d.mem_all e e.mem_all (List.isPrefixOf_iff_prefix.mpr h)

/-- How the calls in `dhsb_log_event` came out: the file could not be opened or locked, or
`write` stored so many bytes. None are stored where it fails. -/
inductive Outcome where
  | refused
  | stored (n : Nat)
  deriving DecidableEq, Repr

def Outcome.isWhole (e : Event) : Outcome → Bool
  | .refused => false
  | .stored n => decide (e.message.length ≤ n)

/-- Something of the message is in the file, but not all of it. -/
def Outcome.cuts (e : Event) : Outcome → Bool
  | .refused => false
  | .stored n => decide (0 < n ∧ n < e.message.length)

/-- `dhsb_log_event`, which does not look at the result of `write`. -/
def dhsbLogEvent (e : Event) (file : List Char) : Outcome → List Char
  | .refused => file
  | .stored n => file ++ e.message.take n

/-- What the handler logs for a SIGUSR1. -/
def usr1Event (pid : Nat) (s : Part4.State) : Option Event :=
  if senderIndex s.workerPids pid = some (Await.sender .memoryWarning) ∧ s.memoryWarned = false then
    some .memoryLimit
  else none

def usr2Event (pid : Nat) (s : Part4.State) : Option Event :=
  match senderIndex s.workerPids pid with
  | some i => if s.completed i then none else some (.completed i)
  | none => none

/-- What the handler logs when a signal is delivered. -/
def handlerEvent (s : Part4.State) : Part4.Action → Option Event
  | .deliverUsr1 => s.pendingUsr1.bind fun pid => usr1Event pid s
  | .deliverUsr2 => s.pendingUsr2.bind fun pid => usr2Event pid s
  | _ => none

/-- `file` is `syslog.log`. Two histories go with it: the messages that any execution has
stored whole since this one began, and those of the handler of this one. -/
structure State where
  core : Part4.State
  file : List Char
  written : List Event
  logged : List Event

/-- `before` is in the file, with the start of this execution where `main` could log it. -/
def State.initial (before : List Event) : State where
  core := Part4.State.initial
  file := messages.concat before
  written := []
  logged := []

/-- A step of this execution, or a message of another one. -/
inductive Action where
  | act (a : Part4.Action) (outcome : Outcome)
  | elsewhere (e : Event) (outcome : Outcome)
  deriving DecidableEq, Repr

def State.write (s : State) (e : Event) (outcome : Outcome) : State :=
  { s with
    file := dhsbLogEvent e s.file outcome
    written := if outcome.isWhole e then s.written ++ [e] else s.written }

def step (s : State) : Action → Option State
  | .act a outcome =>
      (Part4.step s.core a).map fun t =>
        match handlerEvent s.core a with
        | none => { s with core := t }
        | some e =>
            { s.write e outcome with
              core := t
              logged := if outcome.isWhole e then s.logged ++ [e] else s.logged }
  | .elsewhere e outcome => some (s.write e outcome)

/-- The flag that the handler sets with the event. -/
def raised (s : Part4.State) : Event → Bool
  | .newExecution => false
  | .memoryLimit => s.memoryWarned
  | .completed i => s.completed i

/-- What the handler prints with the event. -/
def Event.lines : Event → List String
  | .newExecution => []
  | .memoryLimit => ["⚠️ Worker exceeded memory limit!\n"]
  | .completed i => completionLines i

/-- The file reads as one list of messages only, what was in it and what was written since. -/
def Reads (before : List Event) (s : State) : Prop :=
  ∀ es, s.file = messages.concat es ↔ es = before ++ s.written

/-- The messages of this execution are among those written, in order, are different and have
their flags set, and their lines stand on the terminal in the same order. -/
structure Kept (s : State) : Prop where
  own : s.logged.Sublist s.written
  nodup : s.logged.Nodup
  raised : ∀ e ∈ s.logged, raised s.core e = true
  lines : (s.logged.flatMap Event.lines).Sublist s.core.stdout

/-- Everything the handler has noticed is logged. -/
def AllLogged (s : State) : Prop := ∀ e, raised s.core e = true → e ∈ s.logged

/-- No message is cut short, in this execution or in another one. -/
def NotCut (s : State) : Action → Prop
  | .act a outcome => ∀ e, handlerEvent s.core a = some e → outcome.cuts e = false
  | .elsewhere e outcome => outcome.cuts e = false

/-- When the handler has something to log, the file is opened and locked and the message is
stored whole. -/
def LogsWhole (s : State) : Action → Prop
  | .act a outcome => ∀ e, handlerEvent s.core a = some e → outcome.isWhole e = true
  | .elsewhere _ _ => True

/-- What the handler logs is what it sets and prints. -/
inductive Effect (s t : Part4.State) : Option Event → Prop
  | none (hraised : raised t = raised s) (hstdout : s.stdout <+: t.stdout) : Effect s t none
  | some {e : Event} (hunset : raised s e = false)
      (hraised : ∀ d, raised t d = true ↔ raised s d = true ∨ d = e)
      (hstdout : t.stdout = s.stdout ++ e.lines) : Effect s t (some e)

theorem raised_congr {s t : Part4.State} (hwarned : t.memoryWarned = s.memoryWarned)
    (hcompleted : t.completed = s.completed) : raised t = raised s := by
  funext e
  cases e with
  | newExecution => rfl
  | memoryLimit => exact hwarned
  | completed i => exact congrFun hcompleted i

theorem Effect.congr {s t u : Part4.State} {logged : Option Event} (h : Effect s t logged)
    (hraised : raised u = raised t) (hstdout : u.stdout = t.stdout) : Effect s u logged := by
  cases h with
  | none h hprints => exact .none (hraised.trans h) (hstdout ▸ hprints)
  | some hunset h hprints => exact .some hunset (hraised ▸ h) (hstdout.trans hprints)

theorem usr1_effect (pid : Nat) (s : Part4.State) :
    Effect s (handleUsr1 pid s) (usr1Event pid s) := by
  have hevent : usr1Event pid s =
      if senderIndex s.workerPids pid = some 2 ∧ s.memoryWarned = false then some .memoryLimit
      else none := rfl
  rw [hevent, handleUsr1]
  split
  case isTrue h =>
    refine .some h.2 (fun d => ?_) rfl
    cases d with
    | newExecution => exact iff_of_false nofun (by rintro (h | h) <;> cases h)
    | memoryLimit => exact iff_of_true rfl (.inr rfl)
    | completed i => exact ⟨.inl, fun h => h.resolve_right nofun⟩
  case isFalse => exact .none rfl (List.prefix_refl _)

theorem usr2_effect (pid : Nat) (s : Part4.State) :
    Effect s (handleUsr2 pid s) (usr2Event pid s) := by
  unfold handleUsr2 usr2Event
  cases senderIndex s.workerPids pid with
  | none => exact .none rfl (List.prefix_refl _)
  | some i =>
      cases hset : s.completed i with
      | true =>
          simp only [hset, if_true]
          exact .none rfl (List.prefix_refl _)
      | false =>
          simp only [hset, Bool.false_eq_true, if_false]
          refine .some hset (fun d => ?_) rfl
          cases d with
          | newExecution => exact iff_of_false nofun (by rintro (h | h) <;> cases h)
          | memoryLimit => exact ⟨.inl, fun h => h.resolve_right nofun⟩
          | completed j =>
              change Function.update s.completed i true j = true ↔ s.completed j = true ∨ _
              rcases eq_or_ne j i with rfl | hne
              · rw [Function.update_self]
                exact iff_of_true rfl (.inr rfl)
              · rw [Function.update_of_ne hne]
                refine ⟨.inl, fun h => h.resolve_right fun heq => ?_⟩
                cases heq
                exact hne rfl

theorem move_effect {s t : Part4.State} {a : Part4.Action} (h : Move s a t) :
    Effect s t (handlerEvent s a) := by
  have hgrows := h.stdout_grows
  cases h with
  | @deliverUsr1 pid _ hpending =>
      rw [handlerEvent, hpending, Option.bind_some]
      exact (usr1_effect pid s).congr (raised_congr rfl rfl) rfl
  | @deliverUsr2 pid _ hpending =>
      rw [handlerEvent, hpending, Option.bind_some]
      exact (usr2_effect pid s).congr (raised_congr rfl rfl) rfl
  | @warn i _ =>
      refine .none (raised_congr ?_ (sendUsr1_frame i s).2.1) hgrows
      change (sendUsr1 i s).memoryWarned = _
      obtain ⟨pending, hsend⟩ := sendUsr1_eq i s
      rw [hsend]
  | @complete i _ _ =>
      obtain ⟨pending, hsend⟩ := sendUsr2_eq i s
      refine .none (raised_congr ?_ ?_) hgrows
      · change (sendUsr2 i s).memoryWarned = _
        rw [hsend]
      · change (sendUsr2 i s).completed = _
        rw [hsend]
  | _ => exact .none rfl hgrows

theorem reads_initial (before : List Event) : Reads before (State.initial before) := by
  intro es
  change messages.concat before = messages.concat es ↔ es = before ++ []
  rw [List.append_nil]
  exact ⟨fun h => (messages.concat_injective h).symm, fun h => by rw [h]⟩

/-- A message leaves the file readable exactly when it is not cut short. -/
theorem reads_write {before : List Event} {s : State} (h : Reads before s) (e : Event)
    (outcome : Outcome) : Reads before (s.write e outcome) ↔ outcome.cuts e = false := by
  have hfile : s.file = messages.concat (before ++ s.written) := (h _).mpr rfl
  have hpos : 0 < e.message.length := List.length_pos_iff.mpr (messages.nonempty e)
  cases outcome with
  | refused => exact iff_of_true h rfl
  | stored n =>
      by_cases hwhole : e.message.length ≤ n
      · have hstored : (s.write e (.stored n)).file =
            messages.concat (before ++ (s.written ++ [e])) := by
          change s.file ++ e.message.take n = _
          rw [List.take_of_length_le hwhole, hfile, ← List.append_assoc, messages.concat_concat]
          rfl
        have hwritten : (s.write e (.stored n)).written = s.written ++ [e] := by
          simp [State.write, Outcome.isWhole, hwhole]
        refine iff_of_true (fun es => ?_) (by simp [Outcome.cuts, hwhole])
        rw [hstored, hwritten]
        exact ⟨fun heq => (messages.concat_injective heq).symm, fun heq => by rw [heq]⟩
      · have hwritten : (s.write e (.stored n)).written = s.written := by
          simp [State.write, Outcome.isWhole, hwhole]
        have hstored : (s.write e (.stored n)).file = s.file ++ e.message.take n := rfl
        rcases Nat.eq_zero_or_pos n with rfl | hn
        · refine iff_of_true (fun es => ?_) (by simp [Outcome.cuts])
          rw [hstored, hwritten, List.take_zero, List.append_nil]
          exact h es
        · refine iff_of_false (fun hreads => ?_) ?_
          · -- the piece makes the file longer, and no message accounts for it
            have hsame := (hreads (before ++ s.written)).mpr (by rw [hwritten])
            rw [hstored, ← hfile, List.append_right_eq_self] at hsame
            have hlength := congrArg List.length hsame
            rw [List.length_take, List.length_nil] at hlength
            omega
          · simp only [Outcome.cuts, decide_eq_false_iff_not]
            omega

/-- One step keeps the file readable exactly when it cuts no message short. -/
theorem reads_step {before : List Event} {s t : State} {a : Action} (h : Reads before s)
    (hstep : step s a = some t) : Reads before t ↔ NotCut s a := by
  cases a with
  | elsewhere e outcome =>
      cases hstep
      exact reads_write h e outcome
  | act a outcome =>
      obtain ⟨u, _, rfl⟩ := Option.map_eq_some_iff.mp hstep
      cases hevent : handlerEvent s.core a with
      | none => exact iff_of_true h (by simp [NotCut, hevent])
      | some e =>
          change Reads before (s.write e outcome) ↔ _
          rw [reads_write h]
          simp [NotCut, hevent]

theorem kept_initial (before : List Event) : Kept (State.initial before) where
  own := List.Sublist.refl _
  nodup := List.nodup_nil
  raised := nofun
  lines := List.Sublist.refl _

theorem kept_step {s t : State} {a : Action} (h : Kept s) (hstep : step s a = some t) :
    Kept t := by
  cases a with
  | elsewhere e outcome =>
      cases hstep
      refine ⟨?_, h.nodup, h.raised, h.lines⟩
      change List.Sublist s.logged (if outcome.isWhole e then s.written ++ [e] else s.written)
      split
      · exact h.own.trans (List.sublist_append_left _ _)
      · exact h.own
  | act a outcome =>
      obtain ⟨u, hcore, rfl⟩ := Option.map_eq_some_iff.mp hstep
      have heffect := move_effect (step_move hcore)
      cases hevent : handlerEvent s.core a with
      | none =>
          rw [hevent] at heffect
          cases heffect with
          | none hraised hstdout =>
              refine ⟨h.own, h.nodup, fun e he => ?_, h.lines.trans hstdout.sublist⟩
              change raised u e = true
              rw [hraised]
              exact h.raised e he
      | some e =>
          rw [hevent] at heffect
          cases heffect with
          | some hunset hraised hstdout =>
              have hold : ∀ d ∈ s.logged, raised u d = true := fun d hd =>
                (hraised d).mpr (.inl (h.raised d hd))
              cases hwhole : outcome.isWhole e with
              | false =>
                  simp only [State.write, hwhole, Bool.false_eq_true, if_false]
                  refine ⟨h.own, h.nodup, hold, ?_⟩
                  change List.Sublist _ u.stdout
                  rw [hstdout]
                  exact h.lines.trans (List.sublist_append_left _ _)
              | true =>
                  have hnew : e ∉ s.logged := fun he => by
                    have hset := h.raised e he
                    rw [hunset] at hset
                    cases hset
                  simp only [State.write, hwhole, if_true]
                  refine ⟨h.own.append (List.Sublist.refl _), ?_, ?_, ?_⟩
                  · change (s.logged ++ [e]).Nodup
                    rw [← List.concat_eq_append]
                    exact h.nodup.concat hnew
                  · intro d hd
                    rcases List.mem_append.mp hd with hd | hd
                    · exact hold d hd
                    · exact (hraised d).mpr (.inr (List.mem_singleton.mp hd))
                  · change ((s.logged ++ [e]).flatMap Event.lines).Sublist u.stdout
                    rw [hstdout, List.flatMap_append]
                    exact h.lines.append (by simp)

/-- One step leaves nothing out exactly when it stores its message whole. -/
theorem allLogged_step {s t : State} {a : Action} (h : Kept s) (hall : AllLogged s)
    (hstep : step s a = some t) : AllLogged t ↔ LogsWhole s a := by
  cases a with
  | elsewhere e outcome =>
      cases hstep
      exact iff_of_true hall trivial
  | act a outcome =>
      obtain ⟨u, hcore, rfl⟩ := Option.map_eq_some_iff.mp hstep
      have heffect := move_effect (step_move hcore)
      cases hevent : handlerEvent s.core a with
      | none =>
          rw [hevent] at heffect
          cases heffect with
          | none hraised _ =>
              refine iff_of_true (fun e he => hall e ?_) (by simp [LogsWhole, hevent])
              change raised u e = true at he
              rw [hraised] at he
              exact he
      | some e =>
          rw [hevent] at heffect
          cases heffect with
          | some hunset hraised _ =>
              have hcond : LogsWhole s (.act a outcome) ↔ outcome.isWhole e = true := by
                simp [LogsWhole, hevent]
              rw [hcond]
              cases hwhole : outcome.isWhole e with
              | false =>
                  refine iff_of_false (fun hlogged => ?_) Bool.false_ne_true
                  have hset := h.raised e (by
                    simpa [hwhole] using hlogged e ((hraised e).mpr (.inr rfl)))
                  rw [hunset] at hset
                  cases hset
              | true =>
                  refine iff_of_true (fun d hd => ?_) rfl
                  simp only [hwhole, if_true]
                  rcases (hraised d).mp hd with hd | rfl
                  · exact List.mem_append_left _ (hall d hd)
                  · exact List.mem_append_right _ (List.mem_singleton_self d)

/-- On every run, with other executions writing at the same time, what is logged is what the
handler has seen. The file can be read exactly as long as no message is cut short, and it has
everything that the handler has seen exactly when each message of the handler is stored
whole. -/
theorem syslog_kept (before : List Event) (acts : List Action) :
    StatesMeet step Kept (State.initial before) acts ∧
      (StatesMeet step (Reads before) (State.initial before) acts ↔
        StepsMeet step NotCut (State.initial before) acts) ∧
      (StatesMeet step AllLogged (State.initial before) acts ↔
        StepsMeet step LogsWhole (State.initial before) acts) := by
  have hnothing : AllLogged (State.initial before) := by
    intro e he
    cases e with
    | newExecution | memoryLimit | completed i => cases he
  refine ⟨.of_invariant (fun _ _ _ h hstep => kept_step h hstep) (kept_initial before) acts, ?_, ?_⟩
  · exact statesMeet_iff_stepsMeet (I := fun _ => True) (fun _ _ _ _ _ => trivial)
      (fun _ _ _ _ h hstep => reads_step h hstep) trivial (reads_initial before) acts
  · exact statesMeet_iff_stepsMeet (fun _ _ _ h hstep => kept_step h hstep)
      (fun _ _ _ h hall hstep => allLogged_step h hall hstep) (kept_initial before) hnothing acts

end Unx511.Assignment1.Part4.Syslog
