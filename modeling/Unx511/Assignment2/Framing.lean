import Unx511.Assignment2.IntfMonitor
import Unx511.Assignment2.NetworkMonitor
import Unx511.Machine.Framing
import Unx511.Machine.Run
import Mathlib.Data.List.TakeWhile

/-!
One connection between a monitor and networkMonitor, byte by byte: the socket
delivers the bytes in order and without loss, and `recv` returns any number of
those that are there, up to 255. Neither program writes or looks for an end of a
message.
-/

namespace Unx511.Assignment2.Framing

open Unx511.Machine

/-- `up` and `down` are on their way to networkMonitor and to the monitor. Three histories: the
messages that the monitor has sent, what `recv` of networkMonitor returned, and the messages
it acted on. -/
structure Connection where
  monitor : Process
  up : List Char
  down : List Char
  serverOpen : Bool
  sent : List Request
  chunks : List (List Char)
  acted : List Request
  deriving DecidableEq

/-- A connection that has just been made; SIGINT may have come before. -/
def Connection.initial (running : Bool) : Connection where
  monitor := { pc := .sendReady, running := running }
  up := []
  down := []
  serverOpen := true
  sent := []
  chunks := []
  acted := []

/-- `send` on a connection that the other side has closed raises SIGPIPE, which
ends the process. -/
def Connection.monitorSend (c : Connection) : Option Connection :=
  (Process.outgoing c.monitor.pc).map fun message =>
    if c.serverOpen then
      { c with
        monitor := c.monitor.goto (Process.afterSend c.monitor.pc)
        up := c.up ++ message.toList
        sent := c.sent ++ (Request.ofMessage message).toList }
    else { c with monitor := c.monitor.goto .exited }

def Connection.monitorRecv (n : Nat) (c : Connection) : Option Connection :=
  if 1 ≤ n ∧ n ≤ 255 ∧ n ≤ c.down.length then
    (c.monitor.afterRecv (.data (String.ofList (c.down.take n)))).map fun p =>
      { c with monitor := p, down := c.down.drop n }
  else none

/-- The C string in the buffer. -/
def message (chunk : List Char) : String := String.ofList (chunk.takeWhile fun x => x ≠ '\x00')

def decode (chunk : List Char) : Option Request := Request.ofMessage (message chunk)

/-- What networkMonitor does with a message. -/
def Connection.act (c : Connection) : Option Request → Connection
  | none => c
  | some .done => { c with serverOpen := false }
  | some m =>
      match m.reply with
      | none => c
      | some reply =>
          if c.monitor.pc.connected then { c with down := c.down ++ reply.toList }
          -- SIGPIPE ends networkMonitor
          else { c with serverOpen := false }

/-- `handle_client_message` when `recv` returns `n` bytes. -/
def Connection.handleClientMessage (n : Nat) (c : Connection) : Option Connection :=
  if c.serverOpen ∧ 1 ≤ n ∧ n ≤ 255 ∧ n ≤ c.up.length then
    let chunk := c.up.take n
    some (Connection.act
      { c with
        up := c.up.drop n
        chunks := c.chunks ++ [chunk]
        acted := c.acted ++ (decode chunk).toList } (decode chunk))
  else none

/-- At `recvEnds` the `recv` of the monitor returns no data, at `disconnect` that of
networkMonitor returns 0. `shutDown` is `cleanup_sockets`. -/
inductive Event where
  | localStep (operstate : String)
  | send
  | recv (n : Nat)
  | recvEnds (r : Recv)
  | close
  | sigint
  | handle (n : Nat)
  | disconnect
  | shutDown
  deriving DecidableEq, Repr

def Connection.step (c : Connection) : Event → Option Connection
  | .localStep operstate =>
      (c.monitor.localStep operstate).map fun p => { c with monitor := p }
  | .send => c.monitorSend
  | .recv n => c.monitorRecv n
  | .recvEnds r =>
      match r with
      | .data _ => none
      | .interrupted => (c.monitor.afterRecv r).map fun p => { c with monitor := p.sigHandler }
      | _ =>
          if c.down = [] ∧ c.serverOpen = false then
            (c.monitor.afterRecv r).map fun p => { c with monitor := p }
          else none
  | .close =>
      if c.monitor.pc = .close then some { c with monitor := c.monitor.goto .exited } else none
  | .sigint => some { c with monitor := c.monitor.sigHandler }
  | .handle n => c.handleClientMessage n
  | .disconnect =>
      if c.serverOpen ∧ c.up = [] ∧ c.monitor.pc.connected = false then
        some { c with serverOpen := false }
      else none
  | .shutDown =>
      if c.serverOpen then
        some { c with
          serverOpen := false
          down := if c.monitor.pc.connected then c.down ++ "Shut Down".toList else c.down }
      else none

/-- The numbers of bytes that `recv` of networkMonitor returns on a run. -/
def recvSizes (es : List Event) : List Nat :=
  es.filterMap fun e => match e with
    | .handle n => some n
    | _ => none

def encode (m : Request) : List Char := m.text.toList

/-- What one step does to the bytes on their way to networkMonitor. -/
inductive Effect (c : Connection) : Event → Connection → Prop
  | quiet {e : Event} {d : Connection} (hup : d.up = c.up) (hsent : d.sent = c.sent)
      (hchunks : d.chunks = c.chunks) (hacted : d.acted = c.acted)
      (hsizes : recvSizes [e] = []) : Effect c e d
  | send {d : Connection} (m : Request) (hup : d.up = c.up ++ encode m)
      (hsent : d.sent = c.sent ++ [m]) (hchunks : d.chunks = c.chunks)
      (hacted : d.acted = c.acted) : Effect c .send d
  | handle {n : Nat} {d : Connection} (hpos : 1 ≤ n) (hn : n ≤ c.up.length)
      (hup : d.up = c.up.drop n) (hsent : d.sent = c.sent)
      (hchunks : d.chunks = c.chunks ++ [c.up.take n])
      (hacted : d.acted = c.acted ++ (decode (c.up.take n)).toList) : Effect c (.handle n) d

theorem act_frame (c : Connection) (m : Option Request) :
    (c.act m).up = c.up ∧ (c.act m).sent = c.sent ∧ (c.act m).chunks = c.chunks ∧
      (c.act m).acted = c.acted := by
  unfold Connection.act
  split
  · exact ⟨rfl, rfl, rfl, rfl⟩
  · exact ⟨rfl, rfl, rfl, rfl⟩
  · split
    · exact ⟨rfl, rfl, rfl, rfl⟩
    · split
      · exact ⟨rfl, rfl, rfl, rfl⟩
      · exact ⟨rfl, rfl, rfl, rfl⟩

theorem outgoing_text {pc : MonitorPc} {text : String} (h : Process.outgoing pc = some text) :
    ∃ m : Request, Request.ofMessage text = some m ∧ text = m.text := by
  cases pc with
  | sendReady =>
      cases h
      exact ⟨.ready, rfl, rfl⟩
  | sendMonitoring =>
      cases h
      exact ⟨.monitoring, rfl, rfl⟩
  | sendLinkDown =>
      cases h
      exact ⟨.linkDown, rfl, rfl⟩
  | sendDone =>
      cases h
      exact ⟨.done, rfl, rfl⟩
  | _ => cases h

theorem monitorSend_effect {c d : Connection} (h : c.monitorSend = some d) :
    Effect c .send d := by
  obtain ⟨text, hout, hd⟩ := Option.map_eq_some_iff.mp h
  obtain ⟨m, hm, htext⟩ := outgoing_text hout
  split at hd
  · subst hd
    apply Effect.send m
    · rw [htext]
      rfl
    · rw [hm]
      rfl
    · rfl
    · rfl
  · subst hd
    exact .quiet rfl rfl rfl rfl rfl

theorem handleClientMessage_effect {c d : Connection} {n : Nat}
    (h : c.handleClientMessage n = some d) : Effect c (.handle n) d := by
  unfold Connection.handleClientMessage at h
  split at h
  case isTrue hn =>
    obtain ⟨_, hpos, _, hlen⟩ := hn
    cases h
    obtain ⟨hup, hsent, hchunks, hacted⟩ := act_frame
      { c with
        up := c.up.drop n
        chunks := c.chunks ++ [c.up.take n]
        acted := c.acted ++ (decode (c.up.take n)).toList } (decode (c.up.take n))
    exact .handle hpos hlen hup hsent hchunks hacted
  case isFalse => cases h

theorem step_effect {c d : Connection} {e : Event} (h : c.step e = some d) : Effect c e d := by
  cases e with
  | send => exact monitorSend_effect h
  | handle n => exact handleClientMessage_effect h
  | localStep operstate =>
      obtain ⟨p, _, rfl⟩ := Option.map_eq_some_iff.mp h
      exact .quiet rfl rfl rfl rfl rfl
  | recv n =>
      simp only [Connection.step, Connection.monitorRecv] at h
      split at h
      · obtain ⟨p, _, rfl⟩ := Option.map_eq_some_iff.mp h
        exact .quiet rfl rfl rfl rfl rfl
      · cases h
  | recvEnds r =>
      simp only [Connection.step] at h
      split at h
      · cases h
      · obtain ⟨p, _, rfl⟩ := Option.map_eq_some_iff.mp h
        exact .quiet rfl rfl rfl rfl rfl
      · split at h
        · obtain ⟨p, _, rfl⟩ := Option.map_eq_some_iff.mp h
          exact .quiet rfl rfl rfl rfl rfl
        · cases h
  | close | disconnect | shutDown =>
      simp only [Connection.step] at h
      split at h
      · cases h
        exact .quiet rfl rfl rfl rfl rfl
      · cases h
  | sigint =>
      cases h
      exact .quiet rfl rfl rfl rfl rfl

/-- The bytes received and the bytes on their way are the encodings of the
messages sent. -/
structure InOrder (c : Connection) : Prop where
  stream : c.chunks.flatten ++ c.up = (c.sent.map encode).flatten
  nonempty : ∀ chunk ∈ c.chunks, chunk ≠ []
  acted : c.acted = c.chunks.filterMap decode

theorem inOrder_initial (running : Bool) : InOrder (Connection.initial running) :=
  ⟨rfl, nofun, rfl⟩

theorem inOrder_effect {c d : Connection} {e : Event} (h : InOrder c) (heffect : Effect c e d) :
    InOrder d := by
  obtain ⟨hstream, hnonempty, hdecoded⟩ := h
  cases heffect with
  | quiet hup hsent hchunks hacted hsizes =>
      refine ⟨?_, ?_, ?_⟩
      · rw [hchunks, hup, hsent, hstream]
      · rw [hchunks]
        exact hnonempty
      · rw [hacted, hchunks, hdecoded]
  | send m hup hsent hchunks hacted =>
      refine ⟨?_, ?_, ?_⟩
      · rw [hchunks, hup, hsent, ← List.append_assoc, hstream]
        simp
      · rw [hchunks]
        exact hnonempty
      · rw [hacted, hchunks, hdecoded]
  | @handle n _ hpos hn hup hsent hchunks hacted =>
      refine ⟨?_, ?_, ?_⟩
      · rw [hchunks, hup, hsent, ← hstream, List.flatten_append, List.append_assoc]
        simp
      · rw [hchunks]
        intro chunk hmem
        rcases List.mem_append.mp hmem with hold | hnew
        · exact hnonempty chunk hold
        · rw [List.mem_singleton.mp hnew]
          apply List.ne_nil_of_length_pos
          rw [List.length_take]
          omega
      · rw [hacted, hchunks, hdecoded, List.filterMap_append]
        cases hdecode : decode (c.up.take n) <;> simp [hdecode]

theorem inOrder_of_run {running : Bool} {es : List Event} {c : Connection}
    (hrun : run Connection.step (Connection.initial running) es = some c) : InOrder c :=
  (Reaches.of_any_run es hrun).invariant (inOrder_initial running) fun _ _ _ hu _ hstep =>
    inOrder_effect hu (step_effect hstep)

/-- The chunks have the sizes that `recv` returned. -/
theorem chunks_sizes {es : List Event} {c d : Connection}
    (hrun : run Connection.step c es = some d) :
    d.chunks.map List.length = c.chunks.map List.length ++ recvSizes es := by
  induction es generalizing c with
  | nil =>
      cases hrun
      simp [recvSizes]
  | cons e rest ih =>
      rw [run_cons] at hrun
      obtain ⟨u, hstep, hrest⟩ := Option.bind_eq_some_iff.mp hrun
      have hsplit : recvSizes (e :: rest) = recvSizes [e] ++ recvSizes rest := by
        rw [recvSizes, recvSizes, recvSizes, ← List.filterMap_append]
        rfl
      rw [ih hrest, hsplit, ← List.append_assoc]
      congr 1
      cases step_effect hstep with
      | quiet _ _ hchunks _ hsizes => rw [hchunks, hsizes, List.append_nil]
      | send m _ _ hchunks _ =>
          rw [hchunks]
          simp [recvSizes]
      | @handle n _ _ hn _ _ hchunks _ =>
          rw [hchunks]
          simp [recvSizes, hn]

theorem encode_no_nul (m : Request) : ∀ x ∈ encode m, x ≠ '\x00' := by
  cases m <;> simp [encode, Request.text]

/-- A chunk of the stream holds no NUL, so the C string in the buffer is all of
it. -/
theorem faithful_of_inOrder {c : Connection} (h : InOrder c) :
    ∀ chunk ∈ c.chunks, Faithful encode decode chunk := by
  intro chunk hchunk m
  have hclean : ∀ x ∈ chunk, x ≠ '\x00' := by
    intro x hx
    have hmem : x ∈ (c.sent.map encode).flatten := by
      rw [← h.stream]
      exact List.mem_append_left _ (List.mem_flatten.mpr ⟨chunk, hchunk, hx⟩)
    obtain ⟨bytes, hbytes, hxbytes⟩ := List.mem_flatten.mp hmem
    obtain ⟨m', _, rfl⟩ := List.mem_map.mp hbytes
    exact encode_no_nul m' x hxbytes
  have hwhole : message chunk = String.ofList chunk := by
    unfold message
    rw [List.takeWhile_eq_self_iff.mpr]
    simpa using hclean
  unfold decode encode
  rw [hwhole, Request.ofMessage_eq_some_iff]
  constructor
  · intro hm
    rw [← hm, String.toList_ofList]
  · intro hm
    rw [hm, String.ofList_toList]

/-- On every run, for every way the stream is cut: once everything has been
received, networkMonitor has acted on exactly the messages that were sent if and
only if every `recv` returned one whole message. -/
theorem framing_iff {running : Bool} {es : List Event} {c : Connection}
    (hrun : run Connection.step (Connection.initial running) es = some c) (hread : c.up = []) :
    c.acted = c.sent ↔ recvSizes es = c.sent.map fun m => m.text.length := by
  have h := inOrder_of_run hrun
  have hstream : c.chunks.flatten = (c.sent.map encode).flatten := by
    rw [← h.stream, hread, List.append_nil]
  have hsizes : c.chunks.map List.length = recvSizes es := chunks_sizes hrun
  rw [h.acted, decoded_iff_lengths (faithful_of_inOrder h) h.nonempty hstream, hsizes]
  rfl

/-- A monitor that is told to monitor and at once finds its link down. -/
def downAtOnce : List Event :=
  [.send, .handle 5, .recv 7, .send, .localStep "up", .localStep "down", .send]

theorem framing_iff_apart :
    ∃ c, run Connection.step (Connection.initial true) (downAtOnce ++ [.handle 10, .handle 9]) =
        some c ∧ c.acted = c.sent ∧ c.sent = [.ready, .monitoring, .linkDown] := by
  have hrun : run Connection.step (Connection.initial true)
      (downAtOnce ++ [.handle 10, .handle 9]) = some _ := rfl
  exact ⟨_, hrun, (framing_iff hrun (by decide)).mpr (by decide), by decide⟩

/-- "Monitoring" and "Link Down" arrive in one `recv`: the report is dropped and
the monitor waits for an answer that nobody will send. -/
theorem report_merged :
    ∃ c, run Connection.step (Connection.initial true) (downAtOnce ++ [.handle 19]) = some c ∧
      c.up = [] ∧ c.sent = [.ready, .monitoring, .linkDown] ∧ c.acted = [.ready] ∧
      c.monitor.pc = .awaitCommand ∧ c.down = [] :=
  ⟨_, rfl, by decide, by decide, by decide, by decide, by decide⟩

end Unx511.Assignment2.Framing
