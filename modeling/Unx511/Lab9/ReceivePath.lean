import Unx511.Lab9.Server
import Unx511.Text.CString

/-!
Lab 9, the way from `read` to `message_queue`. Of every client, the strings that
its thread has pushed and the one it is about to push are those made of what
`read` returned, in order; a string gives back the bytes it was made of when a NUL
ends it inside the buffer.
-/

namespace Unx511.Lab9.Server

open Machine

/-- What `read` returned to the thread of a client, each with the memory behind the
buffer at that time. -/
def readsOf (client : Nat) (acts : List Action) : List (List UInt8 × List UInt8) :=
  acts.filterMap fun a =>
    match a with
    | .read i bytes behind => if i = client then some (bytes, behind) else none
    | _ => none

/-- The string that the thread is about to push. -/
def ThreadPc.inHand : ThreadPc → List (List UInt8)
  | .lock text | .push text => [text]
  | _ => []

/-- The strings pushed for a client. -/
def State.sent (s : State) (client : Nat) : List (List UInt8) :=
  (s.pushed.filter (·.client = client)).map Message.text

def State.inHand (s : State) (client : Nat) : List (List UInt8) :=
  (s.threads[client]?.map ThreadPc.inHand).getD []

/-- The strings made of what a client has sent: those pushed, and the one that its
thread is about to push. -/
def State.strings (s : State) (client : Nat) : List (List UInt8) :=
  s.sent client ++ s.inHand client

theorem inHand_of_thread {s : State} {i : Nat} {pc : ThreadPc} (h : s.threads[i]? = some pc) :
    s.inHand i = pc.inHand := by
  simp [State.inHand, h]

theorem inHand_goto {s : State} {i : Nat} {old : ThreadPc} (h : s.threads[i]? = some old)
    (pc : ThreadPc) (client : Nat) :
    (s.goto i pc).inHand client = if i = client then pc.inHand else s.inHand client := by
  obtain ⟨hi, _⟩ := List.getElem?_eq_some_iff.mp h
  by_cases hc : i = client
  · subst hc
    simp [State.inHand, State.goto, hi]
  · simp [State.inHand, State.goto, hc]

/-- A statement that neither makes nor pushes a string. -/
theorem strings_goto {s : State} {i : Nat} {old : ThreadPc} (h : s.threads[i]? = some old)
    (pc : ThreadPc) (hsame : pc.inHand = old.inHand) (client : Nat) :
    (s.goto i pc).strings client = s.strings client := by
  have hgoto := inHand_goto h pc client
  change s.sent client ++ (s.goto i pc).inHand client = s.sent client ++ s.inHand client
  rw [hgoto]
  split
  · rename_i hc
    rw [← hc, inHand_of_thread h, hsame]
  · rfl

theorem strings_push {s : State} {i : Nat} {text : List UInt8}
    (h : s.threads[i]? = some (.push text)) (client : Nat) :
    ((s.pushMessage ⟨i, text⟩).goto i .unlock).strings client = s.strings client := by
  have hgoto := inHand_goto (s := s.pushMessage ⟨i, text⟩) h .unlock client
  have hsent : (s.pushMessage ⟨i, text⟩).sent client =
      s.sent client ++ if i = client then [text] else [] := by
    simp only [State.sent, State.pushMessage, List.filter_append, List.map_append]
    split
    · rename_i hc
      simp [hc]
    · rename_i hc
      simp [hc]
  change (s.pushMessage ⟨i, text⟩).sent client ++ _ = s.sent client ++ s.inHand client
  rw [hgoto, hsent]
  split
  · rename_i hc
    rw [← hc, inHand_of_thread h, List.append_assoc]
    rfl
  · rw [List.append_nil]
    rfl

theorem strings_read {s : State} {i : Nat} (h : s.threads[i]? = some .read) (text : List UInt8)
    (client : Nat) :
    (s.goto i (.lock text)).strings client =
      s.strings client ++ if i = client then [text] else [] := by
  have hgoto := inHand_goto h (.lock text) client
  change s.sent client ++ (s.goto i (.lock text)).inHand client = _
  rw [hgoto, State.strings]
  split
  · rename_i hc
    rw [← hc, inHand_of_thread h]
    simp [ThreadPc.inHand]
  · rw [List.append_nil]

theorem strings_accept (s : State) (pc : MainPc) (client : Nat) :
    ({ s with threads := s.threads ++ [.test], main := pc } : State).strings client =
      s.strings client := by
  change s.sent client ++ ((s.threads ++ [ThreadPc.test])[client]?.map ThreadPc.inHand).getD [] = _
  rw [State.strings, State.inHand, List.getElem?_append]
  split
  · rfl
  · rename_i hnew
    rw [List.getElem?_eq_none (by omega : s.threads.length ≤ client)]
    cases client - s.threads.length with
    | zero => rfl
    | succ k => rfl

theorem mainStep_strings {s t : State} (h : mainStep s = some t) (client : Nat) :
    t.strings client = s.strings client := by
  suffices hframe : t.threads = s.threads ∧ t.pushed = s.pushed by
    simp only [State.strings, State.sent, State.inHand, hframe.1, hframe.2]
  unfold mainStep at h
  split at h
  case h_3 =>
    split at h
    · cases h
    · cases h
      exact ⟨rfl, rfl⟩
  case h_4 =>
    split at h
    · cases h
      exact ⟨rfl, rfl⟩
    · cases h
      exact ⟨rfl, rfl⟩
  case h_8 =>
    split at h
    · split at h
      · cases h
        exact ⟨rfl, rfl⟩
      · cases h
    · cases h
      exact ⟨rfl, rfl⟩
  case h_9 | h_10 => cases h
  all_goals
    cases h
    exact ⟨rfl, rfl⟩

/-- A read makes one string, and no other statement makes or loses any. -/
theorem step_strings {s t : State} {a : Action} (h : step s a = some t) (client : Nat) :
    t.strings client =
      s.strings client ++ (readsOf client [a]).map fun read => stringOf read.1 read.2 := by
  have hthread : ∀ {b : Action}, threadStep s b = some t →
      t.strings client =
        s.strings client ++ (readsOf client [b]).map fun read => stringOf read.1 read.2 := by
    intro b hb
    unfold threadStep at hb
    split at hb
    case h_1 i =>
      split at hb
      · rename_i hpc
        cases hb
        rw [strings_goto hpc _ (by split <;> rfl)]
        exact (List.append_nil _).symm
      · cases hb
    case h_2 i bytes behind =>
      split at hb
      · rename_i hpc
        cases hb
        rw [strings_read hpc.1]
        by_cases hc : i = client
        · simp [readsOf, hc]
        · simp [readsOf, hc]
      · cases hb
    case h_3 i =>
      split at hb
      · rename_i hpc
        cases hb
        rw [strings_goto hpc .ended rfl]
        exact (List.append_nil _).symm
      · cases hb
    case h_4 i =>
      split at hb
      · rename_i hpc
        cases hb
        rw [strings_goto hpc .test rfl]
        exact (List.append_nil _).symm
      · cases hb
    case h_5 i =>
      split at hb
      · rename_i text hpc
        split at hb
        · cases hb
        · cases hb
          refine (strings_goto (s := { s with locked := true }) hpc (.push text) rfl
            client).trans ?_
          exact (List.append_nil _).symm
      · cases hb
    case h_6 i =>
      split at hb
      · rename_i text hpc
        cases hb
        rw [strings_push hpc]
        exact (List.append_nil _).symm
      · cases hb
    case h_7 i =>
      split at hb
      · rename_i hpc
        cases hb
        refine (strings_goto (s := { s with locked := false }) hpc .test rfl client).trans ?_
        exact (List.append_nil _).symm
      · cases hb
    case h_8 => cases hb
  unfold step at h
  split at h
  · cases h
  · split at h
    · rw [mainStep_strings h]
      exact (List.append_nil _).symm
    · split at h
      · cases h
        rw [strings_accept]
        exact (List.append_nil _).symm
      · cases h
    · cases h
      exact (List.append_nil _).symm
    · obtain ⟨_, _, rfl⟩ := sigpipe_cases h
      exact (List.append_nil _).symm
    · exact hthread h

theorem readsOf_append (client : Nat) (front back : List Action) :
    readsOf client (front ++ back) = readsOf client front ++ readsOf client back :=
  List.filterMap_append

/-- In every run, a client's strings are those made of its reads, in order. -/
theorem run_strings {acts : List Action} {s t : State} (h : run step s acts = some t)
    (client : Nat) :
    t.strings client =
      s.strings client ++ (readsOf client acts).map fun read => stringOf read.1 read.2 := by
  induction acts generalizing s with
  | nil =>
      cases h
      exact (List.append_nil _).symm
  | cons a rest ih =>
      rw [run_cons] at h
      obtain ⟨u, hstep, hrest⟩ := Option.bind_eq_some_iff.mp h
      have hreads : readsOf client (a :: rest) = readsOf client [a] ++ readsOf client rest :=
        readsOf_append client [a] rest
      rw [ih hrest, step_strings hstep, hreads, List.map_append, List.append_assoc]

theorem stringOf_short {bytes : List UInt8} (hnul : 0 ∉ bytes) (hshort : bytes.length < bufferSize)
    (behind : List UInt8) : stringOf bytes behind = bytes := by
  rw [stringOf, if_pos hshort]
  exact Text.cString_eq_self hnul

/-- A read that fills the buffer makes a string that ends behind it. -/
theorem le_length_stringOf {bytes : List UInt8} (hnul : 0 ∉ bytes)
    (hfull : bufferSize ≤ bytes.length) (behind : List UInt8) :
    bufferSize ≤ (stringOf bytes behind).length := by
  have hstring : stringOf bytes behind = bytes ++ Text.cString 0 behind := by
    rw [stringOf, if_neg (by omega)]
    exact Text.cString_append hnul behind
  rw [hstring, List.length_append]
  omega

/-- The strings of a client give back what was read from it, and each of them ends,
its NUL included, inside the buffer. -/
def State.Relays (s : State) (client : Nat) (received : List (List UInt8)) : Prop :=
  (s.strings client).flatten = received.flatten ∧
    ∀ text ∈ s.strings client, text.length < bufferSize

/-- Every run relays a client's text exactly when none of its reads fills the buffer. -/
theorem relays_iff (acts : List Action) {s : State} (hrun : run step .initial acts = some s)
    (client : Nat) (hnul : ∀ read ∈ readsOf client acts, 0 ∉ read.1) :
    s.Relays client ((readsOf client acts).map Prod.fst) ↔
      ∀ read ∈ readsOf client acts, read.1.length < bufferSize := by
  have hstrings := run_strings hrun client
  change s.strings client = [] ++ _ at hstrings
  rw [List.nil_append] at hstrings
  rw [State.Relays, hstrings]
  constructor
  · rintro ⟨_, hinside⟩ read hread
    by_contra hfull
    have hle := le_length_stringOf (hnul read hread) (by omega) read.2
    have hlt := hinside _ (List.mem_map_of_mem hread)
    omega
  · intro hshort
    have hsame : ((readsOf client acts).map fun read => stringOf read.1 read.2) =
        (readsOf client acts).map Prod.fst :=
      List.map_congr_left fun read hread => stringOf_short (hnul read hread) (hshort read hread) _
    rw [hsame]
    refine ⟨rfl, fun text htext => ?_⟩
    obtain ⟨read, hread, rfl⟩ := List.mem_map.mp htext
    exact hshort read hread

/-- A client sends a line in two pieces. -/
def twoPieces : List Action :=
  [.main, .accepted, .test 0, .read 0 [72, 105] [], .lock 0, .push 0, .unlock 0, .test 0,
    .read 0 [33, 10] []]

theorem relays_two_pieces :
    ∃ s, run step .initial twoPieces = some s ∧
      (∀ read ∈ readsOf 0 twoPieces, 0 ∉ read.1) ∧
      (s.Relays 0 ((readsOf 0 twoPieces).map Prod.fst) ↔
        ∀ read ∈ readsOf 0 twoPieces, read.1.length < bufferSize) := by
  refine ⟨_, rfl, by decide, ?_⟩
  exact relays_iff twoPieces rfl 0 (by decide)

/-- A client is accepted, and what one read returns is pushed. -/
def onePush (bytes behind : List UInt8) : List Action :=
  [.main, .accepted, .test 0, .read 0 bytes behind, .lock 0, .push 0]

theorem run_onePush {bytes : List UInt8} (hpos : 0 < bytes.length)
    (hle : bytes.length ≤ bufferSize) (behind : List UInt8) :
    ∃ s, run step .initial (onePush bytes behind) = some s := by
  let reading : State := { State.initial with main := .lock, threads := [.read] }
  have hfront : run step .initial [.main, .accepted, .test 0] = some reading := rfl
  have hguard : reading.threads[0]? = some .read ∧ 0 < bytes.length ∧ bytes.length ≤ bufferSize :=
    ⟨rfl, hpos, hle⟩
  have hread : step reading (.read 0 bytes behind) =
      some (reading.goto 0 (.lock (stringOf bytes behind))) := by
    change (if reading.threads[0]? = some .read ∧ 0 < bytes.length ∧ bytes.length ≤ bufferSize then
      some (reading.goto 0 (.lock (stringOf bytes behind))) else none) = _
    rw [if_pos hguard]
  have hback : ∃ s, run step reading [.read 0 bytes behind, .lock 0, .push 0] = some s := by
    rw [run_cons, hread]
    exact ⟨_, rfl⟩
  obtain ⟨s, hs⟩ := hback
  exact ⟨s, (run_append_of_eq hfront _).trans hs⟩

/-- The text of a client that was not read for a while fills the buffer: the string
goes on with the byte behind it. -/
theorem onePush_full_not_relayed :
    ∃ s, run step .initial (onePush (List.replicate 4096 65) [66]) = some s ∧
      (∀ read ∈ readsOf 0 (onePush (List.replicate 4096 65) [66]), 0 ∉ read.1) ∧
      ¬ s.Relays 0 ((readsOf 0 (onePush (List.replicate 4096 65) [66])).map Prod.fst) := by
  have hlength : (List.replicate 4096 (65 : UInt8)).length = bufferSize := List.length_replicate
  have hnul : (0 : UInt8) ∉ List.replicate 4096 65 := by
    intro h
    exact absurd (List.eq_of_mem_replicate h) (by decide)
  obtain ⟨s, hrun⟩ := run_onePush (by rw [hlength]; decide) hlength.le [66]
  have hstrings := run_strings hrun 0
  refine ⟨s, hrun, ?_, ?_⟩
  · intro read hread
    obtain rfl := List.mem_singleton.mp hread
    exact hnul
  · rintro ⟨_, hinside⟩
    have hlt := hinside (stringOf (List.replicate 4096 65) [66]) (by
      rw [hstrings]
      exact List.mem_singleton_self _)
    have hle := le_length_stringOf hnul hlength.ge [66]
    omega

end Unx511.Lab9.Server
