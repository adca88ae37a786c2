import Unx511.Assignment3.Commands
import Unx511.Assignment3.Filtering
import Unx511.Machine.Run

/-!
Assignment 3: the logging client, the log server and the datagrams between them. The
client calls `Log` and `SetLogLevel` while its second thread takes commands; the server
stores records in one thread and serves its menu in another. On the loopback interface
datagrams stay in order, and one that finds the buffer full is lost.
-/

namespace Unx511.Assignment3.System

open Unx511.Text Unx511.Machine

/-- `commands` are on their way to the client and `records` to the server, whose level is
`server` and whose file is `server_log.txt`; `pending` says that `log_message` is between
its two `endl`. `passed` keeps the calls of `Log` that sent a datagram. -/
structure State where
  client : Logger
  commands : List (List Char)
  server : LogLevel
  records : List (List Char)
  file : List Char
  pending : Bool
  passed : List Call
  deriving DecidableEq, Repr

/-- Both programs have started; the client's socket is open. -/
def State.initial (clientFd : Nat) : State where
  client := ⟨0, clientFd⟩
  commands := []
  server := .debug
  records := []
  file := []
  pending := false
  passed := []

/-- The client calls `SetLogLevel` and `Log`, and its thread takes a command. `choose` is
choice 1 of the server's menu; `receive` goes up to the first `endl` of a record and
`endRecord` is the second one. -/
inductive Action where
  | setLogLevel (level : LogLevel)
  | log (call : Call)
  | listen
  | choose (level : LogLevel) (socketOk : Bool)
  | receive
  | endRecord
  | loseCommand (i : Nat)
  | loseRecord (i : Nat)
  deriving DecidableEq, Repr

def step (s : State) : Action → Option State
  | .setLogLevel level => some { s with client.logLevel := level.toNat }
  | .log call =>
      match log s.client call with
      | none => some s
      | some datagram =>
          some { s with records := s.records ++ [datagram], passed := s.passed ++ [call] }
  | .listen =>
      match s.commands with
      | [] => none
      | command :: rest =>
          match handleCommand command s.client.logLevel with
          | .ok level => some { s with client.logLevel := level, commands := rest }
          | .error _ => none
  | .choose level socketOk =>
      some { s with
        server := level
        commands := if socketOk then s.commands ++ [serverCommand level] else s.commands }
  | .receive =>
      if s.pending then none
      else
        match s.records with
        | [] => none
        | datagram :: rest =>
            if 0 < (datagram.take BUF_LEN).length then
              some { s with
                records := rest
                file := s.file ++ datagram.take BUF_LEN ++ ['\n']
                pending := true }
            else some { s with records := rest }
  | .endRecord =>
      if s.pending then some { s with file := s.file ++ ['\n'], pending := false } else none
  | .loseCommand i =>
      if i < s.commands.length then some { s with commands := s.commands.eraseIdx i } else none
  | .loseRecord i =>
      if i < s.records.length then some { s with records := s.records.eraseIdx i } else none

theorem length_take_pos {datagram : List Char} (h : datagram ≠ []) :
    0 < (datagram.take BUF_LEN).length := by
  rw [List.length_take]
  exact Nat.lt_min.mpr ⟨by decide, List.length_pos_iff.mpr h⟩

/-- What `receive_logs` does with a datagram, in its two steps. -/
theorem receive_endRecord {s : State} {datagram : List Char} {rest : List (List Char)}
    (hpending : s.pending = false) (hrecords : s.records = datagram :: rest)
    (hdatagram : datagram ≠ []) :
    run step s [.receive, .endRecord] =
      some { s with records := rest, file := receiveLogs datagram s.file } := by
  have hlength : 0 < (datagram.take BUF_LEN).length := length_take_pos hdatagram
  simp only [run, step, hpending, hrecords, receiveLogs, logMessage, if_pos hlength,
    Bool.false_eq_true, if_false, if_true, Option.bind_some, List.append_assoc, List.cons_append,
    List.nil_append]

/-! The file. -/

/-- What is stored for a call: its record, cut to the buffer of `receive_logs`. -/
def entry (call : Call) : List Char := call.record.take BUF_LEN ++ ['\n', '\n']

/-- The file holds the records of `kept`, the second newline of the last one aside. -/
def Holds (kept : List Call) (pending : Bool) (file : List Char) : Prop :=
  file ++ (if pending then ['\n'] else []) = kept.flatMap entry

/-- The records that are stored and those on their way come from calls that passed, in
their order, each from one of its own. -/
def Accounts (s : State) : Prop :=
  ∃ kept flying : List Call,
    (kept ++ flying).Sublist s.passed ∧ s.records = flying.map Call.record ∧
      Holds kept s.pending s.file

theorem record_ne_nil (call : Call) : call.record ≠ [] := by
  simp [Call.record]

theorem log_eq_some {logger : Logger} {call : Call} {datagram : List Char}
    (h : log logger call = some datagram) : datagram = call.record := by
  unfold log at h
  split at h
  · cases h
  · split at h
    · exact (Option.some.inj h).symm
    · cases h

theorem step_accounts {s t : State} {a : Action} (hs : Accounts s) (h : step s a = some t) :
    Accounts t := by
  obtain ⟨kept, flying, hsub, hrecords, hfile⟩ := hs
  cases a with
  | setLogLevel level | choose level socketOk =>
      cases h
      exact ⟨kept, flying, hsub, hrecords, hfile⟩
  | log call =>
      simp only [step] at h
      split at h
      · cases h
        exact ⟨kept, flying, hsub, hrecords, hfile⟩
      case h_2 datagram hlog =>
        cases h
        refine ⟨kept, flying ++ [call], ?_, ?_, hfile⟩
        · rw [← List.append_assoc]
          exact hsub.append (List.Sublist.refl _)
        · rw [List.map_append, hrecords, log_eq_some hlog]
          rfl
  | listen =>
      simp only [step] at h
      split at h
      · cases h
      · split at h
        · cases h
          exact ⟨kept, flying, hsub, hrecords, hfile⟩
        · cases h
  | receive =>
      simp only [step] at h
      split at h
      · cases h
      case isFalse hpending =>
        split at h
        · cases h
        case h_2 datagram rest hhead =>
          cases flying with
          | nil => cases hrecords.symm.trans hhead
          | cons call flying =>
              obtain ⟨rfl, rfl⟩ := List.cons.inj (hrecords.symm.trans hhead)
              rw [if_pos (length_take_pos (record_ne_nil call))] at h
              cases h
              refine ⟨kept ++ [call], flying, ?_, rfl, ?_⟩
              · rwa [List.append_assoc]
              · have hpending : s.pending = false := Bool.eq_false_iff.mpr hpending
                unfold Holds at hfile ⊢
                rw [hpending] at hfile
                simp only [Bool.false_eq_true, if_false, List.append_nil] at hfile
                simp [hfile, entry]
  | endRecord =>
      obtain ⟨hpending, h⟩ := Option.ite_none_right_eq_some.mp h
      cases h
      refine ⟨kept, flying, hsub, hrecords, ?_⟩
      unfold Holds at hfile ⊢
      rw [hpending] at hfile
      simpa using hfile
  | loseCommand i =>
      obtain ⟨_, h⟩ := Option.ite_none_right_eq_some.mp h
      cases h
      exact ⟨kept, flying, hsub, hrecords, hfile⟩
  | loseRecord i =>
      obtain ⟨_, h⟩ := Option.ite_none_right_eq_some.mp h
      cases h
      refine ⟨kept, flying.eraseIdx i, ?_, ?_, hfile⟩
      · exact ((List.Sublist.refl kept).append (List.eraseIdx_sublist ..)).trans hsub
      · change s.records.eraseIdx i = _
        rw [hrecords, List.eraseIdx_map]

/-! A dump, at any moment. -/

/-- The lines of the file, each with whether it is a blank one behind a record. -/
def keptLines (kept : List Call) (pending : Bool) : List FileLine :=
  let lines := kept.flatMap fun call => recordLines call.record
  if pending then lines.dropLast else lines

/-- Between its first and its last line a dump shows lines of the file which are,
separators aside, the records that pass, whole and in order. -/
def Shows (exactMatch : Bool) (kept : List Call) (s : State) : Prop :=
  ∃ shown : List FileLine,
    shown.Sublist (keptLines kept s.pending) ∧
    dumpLogFile exactMatch s.server (some s.file) =
      dumpHeader exactMatch s.server :: shown.map (·.text) ++ [dumpFooter] ∧
    (shown.filter fun line => !line.separator).map (·.text) =
      (kept.filter fun call => LogLevel.passes exactMatch s.server call.level).flatMap
        fun call => call.record.splitOn '\n'

/-- What the receive thread has still to write is a separator. -/
theorem keptLines_append (kept : List Call) {pending : Bool} (h : pending = true → kept ≠ []) :
    keptLines kept pending ++ (if pending then [⟨[], true⟩] else []) =
      kept.flatMap fun call => recordLines call.record := by
  cases pending with
  | false => exact List.append_nil _
  | true =>
      obtain ⟨front, last, rfl⟩ := (List.eq_nil_or_concat' kept).resolve_left (h rfl)
      simp [keptLines, recordLines]

theorem Holds.ne_nil {kept : List Call} {pending : Bool} {file : List Char}
    (h : Holds kept pending file) (hpending : pending = true) : kept ≠ [] := by
  rintro rfl
  subst hpending
  simp [Holds] at h

theorem getlines_stored_append {kept : List Call}
    (hlength : ∀ call ∈ kept, call.record.length ≤ BUF_LEN) (rest : List Char) :
    getlines (kept.flatMap entry ++ rest) =
      (kept.flatMap fun call => recordLines call.record).map (·.text) ++ getlines rest := by
  induction kept with
  | nil => rfl
  | cons call kept ih =>
      have hcall : call.record.take BUF_LEN = call.record :=
        List.take_of_length_le (hlength call List.mem_cons_self)
      have ih := ih fun c hc => hlength c (List.mem_cons_of_mem _ hc)
      rw [List.flatMap_cons, entry, hcall, List.append_assoc, List.append_assoc,
        List.cons_append, getlines_append, List.singleton_append, ← List.nil_append ('\n' :: _),
        getlines_append, ih]
      simp [recordLines, Function.comp_def]

/-- What `getline` reads are the lines of the file. -/
theorem getlines_kept {kept : List Call} {pending : Bool} {file : List Char}
    (hfile : Holds kept pending file) (hlength : ∀ call ∈ kept, call.record.length ≤ BUF_LEN) :
    getlines file = (keptLines kept pending).map (·.text) := by
  cases pending with
  | false =>
      have hflat : file = kept.flatMap entry := by simpa [Holds] using hfile
      have hlines := getlines_stored_append hlength []
      rw [List.append_nil] at hlines
      rw [hflat, hlines]
      simp [keptLines, getlines]
  | true =>
      obtain ⟨front, last, rfl⟩ := (List.eq_nil_or_concat' kept).resolve_left (hfile.ne_nil rfl)
      have hlast : last.record.take BUF_LEN = last.record :=
        List.take_of_length_le (hlength last (by simp))
      have hflat : file = front.flatMap entry ++ (last.record ++ ['\n']) := by
        have hfile : file ++ ['\n'] =
            front.flatMap entry ++ (last.record ++ ['\n']) ++ ['\n'] := by
          simpa [Holds, entry, hlast] using hfile
        exact List.append_cancel_right hfile
      rw [hflat, getlines_stored_append fun c hc => hlength c (by simp [hc]), getlines_append]
      simp [keptLines, recordLines, getlines, Function.comp_def]

/-- The lines of a record that a dump does not leave out. -/
theorem shown_records {exactMatch : Bool} {server : LogLevel} {kept : List Call}
    (hclear : ∀ call ∈ kept, Clear call.level call.free) :
    (((kept.flatMap fun call => recordLines call.record).filter fun line =>
        LogLevel.passes exactMatch server (getLogLevelFromString line.text)).filter
          fun line => !line.separator).map (·.text) =
      (kept.filter fun call => LogLevel.passes exactMatch server call.level).flatMap
        fun call => call.record.splitOn '\n' := by
  induction kept with
  | nil => rfl
  | cons call kept ih =>
      have hcall := recordLines_shown exactMatch server (hclear call List.mem_cons_self)
      have hrest := ih fun c hc => hclear c (List.mem_cons_of_mem _ hc)
      rw [List.flatMap_cons, List.filter_append, List.filter_append, List.map_append, hcall,
        hrest, List.filter_cons]
      split
      · rfl
      · rfl

theorem shows_of_clear {kept : List Call} {s : State} (hfile : Holds kept s.pending s.file)
    (hlength : ∀ call ∈ kept, call.record.length ≤ BUF_LEN)
    (hclear : ∀ call ∈ kept, Clear call.level call.free) (exactMatch : Bool) :
    Shows exactMatch kept s := by
  refine ⟨(keptLines kept s.pending).filter fun line =>
    LogLevel.passes exactMatch s.server (getLogLevelFromString line.text), List.filter_sublist,
    ?_, ?_⟩
  · rw [dumpLogFile, Option.elim_some, getlines_kept hfile hlength, List.filter_map]
    rfl
  · rw [← shown_records hclear, ← keptLines_append kept hfile.ne_nil, List.filter_append,
      List.filter_append]
    have hseparator : ∀ pending : Bool,
        ((if pending then [(⟨[], true⟩ : FileLine)] else []).filter fun line =>
          LogLevel.passes exactMatch s.server (getLogLevelFromString line.text)).filter
            (fun line => !line.separator) = [] := by
      intro pending
      rw [List.filter_comm]
      cases pending <;> rfl
    rw [hseparator, List.append_nil]

theorem clear_of_shows {kept : List Call} {s : State} {call : Call} (hmem : call ∈ kept)
    (hlevel : s.server = call.level) (h : Shows true kept s) : Clear call.level call.free := by
  rw [← record_level_iff]
  intro line hline
  obtain ⟨shown, _, hdump, hshown⟩ := h
  have hwanted : line ∈ (shown.filter fun l => !l.separator).map (·.text) := by
    rw [hshown, List.mem_flatMap]
    refine ⟨call, ?_, hline⟩
    simp [hmem, hlevel, LogLevel.passes]
  have hline : line ∈ shown.map (·.text) := (List.filter_sublist.map _).subset hwanted
  rw [dumpLogFile, List.cons_append, List.cons_append, List.cons.injEq,
    List.append_cancel_right_eq] at hdump
  rw [← hdump.2] at hline
  have hpasses := List.of_mem_filter hline
  simpa [LogLevel.passes, hlevel] using hpasses

/-- Whatever is lost and whenever the levels change, the file holds records of calls that
passed the client's level, each cut to `BUF_LEN`, in order and once each. Where none of
these records is longer than that, the dumps at this moment are right, for every level the
server may have, exactly when the free texts are clear. -/
theorem log_file_kept {clientFd : Nat} {acts : List Action} {s : State}
    (hrun : run step (State.initial clientFd) acts = some s) :
    ∃ kept : List Call, kept.Sublist s.passed ∧ Holds kept s.pending s.file ∧
      ((∀ call ∈ kept, call.record.length ≤ BUF_LEN) →
        ((∀ exactMatch server, Shows exactMatch kept { s with server := server }) ↔
          ∀ call ∈ kept, Clear call.level call.free)) := by
  have haccounts : Accounts s := (Reaches.of_any_run acts hrun).invariant
    ⟨[], [], List.Sublist.refl _, rfl, rfl⟩ fun _ _ _ hs _ hstep => step_accounts hs hstep
  obtain ⟨kept, flying, hsub, _, hfile⟩ := haccounts
  refine ⟨kept, (List.sublist_append_left kept flying).trans hsub, hfile, fun hlength => ?_⟩
  constructor
  · exact fun h call hmem => clear_of_shows hmem rfl (h true call.level)
  · exact fun hclear exactMatch server =>
      shows_of_clear (s := { s with server := server }) hfile hlength hclear exactMatch

/-- The record of a warning, and not its second newline yet. -/
def oneRecord : List Action := [.log (demoCall .warning ['o', 'k']), .receive]

theorem log_file_kept_one_record :
    ∃ s, run step (State.initial 3) oneRecord = some s ∧ s.pending = true ∧
      ∃ kept : List Call, kept.Sublist s.passed ∧ Holds kept s.pending s.file ∧
        ((∀ call ∈ kept, call.record.length ≤ BUF_LEN) →
          ((∀ exactMatch server, Shows exactMatch kept { s with server := server }) ↔
            ∀ call ∈ kept, Clear call.level call.free)) := by
  have hrun : run step (State.initial 3) oneRecord = some _ := rfl
  exact ⟨_, hrun, rfl, log_file_kept hrun⟩

/-! The levels of the two programs. -/

/-- The client's level once it has taken the commands that are on their way. -/
def State.inForce (s : State) : Except StdException Int :=
  listenForCommands (s.commands.map some) s.client.logLevel

/-- With that level the client sends exactly the calls at or above the server's level. -/
def Agrees (s : State) : Prop :=
  ∃ level, s.inForce = .ok level ∧
    ∀ call, Logger.logged { s.client with logLevel := level } call =
      LogLevel.passes false s.server call.level

/-- The client sets the level itself only to the server's or while a command is on its
way, no `socket` fails and no last command is lost, or it makes no difference. -/
def KeepsLevel (s : State) : Action → Prop
  | .setLogLevel level => s.commands = [] → level = s.server
  | .choose level socketOk => socketOk = false → level = s.server
  | .loseCommand i => i + 1 = s.commands.length →
      listenForCommands (s.commands.dropLast.map some) s.client.logLevel = .ok s.server.toNat
  | _ => True

/-- The client's level and the commands are of the server's making. -/
structure Wired (s : State) (own : LogLevel) (levels : List LogLevel) : Prop where
  own : s.client.logLevel = own.toNat
  fd : s.client.clientFd ≠ -1
  commands : s.commands = levels.map serverCommand

/-- The last command decides. -/
def target (own : LogLevel) (levels : List LogLevel) : LogLevel := levels.getLast?.getD own

theorem target_concat (own : LogLevel) (front : List LogLevel) (last : LogLevel) :
    target own (front ++ [last]) = last := by
  simp [target]

theorem target_cons (own level : LogLevel) (levels : List LogLevel) :
    target own (level :: levels) = target level levels := by
  unfold target
  rw [List.getLast?_cons]
  rfl

theorem listenForCommands_serverCommands (own : LogLevel) (levels : List LogLevel) :
    listenForCommands ((levels.map serverCommand).map some) own.toNat =
      .ok (target own levels).toNat := by
  induction levels generalizing own with
  | nil => rfl
  | cons level levels ih =>
      rw [target_cons, ← ih level]
      change (handleCommand (serverCommand level) own.toNat).bind _ = _
      rw [handleCommand_serverCommand]
      rfl

theorem logged_eq_passes (own : LogLevel) {clientFd : Int} (hfd : clientFd ≠ -1) (call : Call) :
    Logger.logged ⟨own.toNat, clientFd⟩ call = LogLevel.passes false own call.level := by
  unfold Logger.logged log LogLevel.passes
  by_cases hlow : call.level.toNat < own.toNat
  · simp [hlow]
  · have hle : own.toNat ≤ call.level.toNat := Nat.le_of_not_lt hlow
    simp [hlow, hfd, hle]

theorem toNat_injective : Function.Injective LogLevel.toNat := by
  intro a b h
  cases a <;> cases b <;> first | rfl | cases h

/-- The cumulative test tells the levels apart. -/
theorem passes_eq_iff {a b : LogLevel} :
    (∀ level, LogLevel.passes false a level = LogLevel.passes false b level) ↔ a = b := by
  constructor
  · intro h
    have hab : b.toNat ≤ a.toNat := by
      have hself := h a
      simpa [LogLevel.passes] using hself
    have hba : a.toNat ≤ b.toNat := by
      have hself := h b
      simpa [LogLevel.passes] using hself
    exact toNat_injective (le_antisymm hba hab)
  · rintro rfl _
    rfl

section Levels

variable {s t : State} {own : LogLevel} {levels : List LogLevel} {a : Action}

theorem Wired.inForce (h : Wired s own levels) : s.inForce = .ok (target own levels).toNat := by
  unfold State.inForce
  rw [h.own, h.commands]
  exact listenForCommands_serverCommands own levels

theorem Wired.agrees_iff (h : Wired s own levels) : Agrees s ↔ target own levels = s.server := by
  rw [← passes_eq_iff]
  have hlogged : ∀ call,
      Logger.logged { s.client with logLevel := (target own levels).toNat } call =
        LogLevel.passes false (target own levels) call.level :=
    logged_eq_passes (target own levels) h.fd
  constructor
  · rintro ⟨level, hlevel, hall⟩ wanted
    obtain rfl := Except.ok.inj (h.inForce.symm.trans hlevel)
    let call : Call := ⟨wanted, ⟨0, 0, 0, 0, 0, 0⟩, [], [], 0, []⟩
    exact (hlogged call).symm.trans (hall call)
  · exact fun hall => ⟨_, h.inForce, fun call => (hlogged call).trans (hall call.level)⟩

theorem Wired.frame (h : Wired s own levels) (hclient : t.client = s.client)
    (hcommands : t.commands = s.commands) : Wired t own levels :=
  ⟨by rw [hclient, h.own], by rw [hclient]; exact h.fd, by rw [hcommands, h.commands]⟩

theorem target_eraseIdx {i : Nat} (hi : i + 1 < levels.length) :
    target own (levels.eraseIdx i) = target own levels := by
  obtain ⟨front, last, rfl⟩ := (List.eq_nil_or_concat' levels).resolve_left (by
    rintro rfl
    simp at hi)
  rw [List.length_append, List.length_singleton] at hi
  rw [List.eraseIdx_append_of_lt_length (by omega), target_concat, target_concat]

/-- What a step makes of the levels. -/
theorem Wired.step (h : Wired s own levels) (hstep : step s a = some t) :
    ∃ own' levels', Wired t own' levels' ∧
      (target own levels = s.server →
        (target own' levels' = t.server ↔ KeepsLevel s a)) := by
  cases a with
  | setLogLevel level =>
      cases hstep
      refine ⟨level, levels, ⟨rfl, h.fd, h.commands⟩, fun hserver => ?_⟩
      change target level levels = s.server ↔ (s.commands = [] → level = s.server)
      cases levels with
      | nil =>
          have hcommands : s.commands = [] := h.commands
          simp [hcommands, target]
      | cons first rest =>
          have hcommands : s.commands ≠ [] := by simp [h.commands]
          rw [target_cons] at hserver ⊢
          exact iff_of_true hserver fun hnil => absurd hnil hcommands
  | log call =>
      simp only [System.step] at hstep
      split at hstep
      all_goals
        cases hstep
        exact ⟨own, levels, h.frame rfl rfl, fun hserver => iff_of_true hserver trivial⟩
  | listen =>
      cases levels with
      | nil =>
          simp only [System.step, h.commands, List.map_nil] at hstep
          cases hstep
      | cons level rest =>
          simp only [System.step, h.commands, List.map_cons, h.own,
            handleCommand_serverCommand] at hstep
          cases hstep
          refine ⟨level, rest, ⟨rfl, h.fd, rfl⟩, fun hserver => ?_⟩
          rw [target_cons] at hserver
          exact iff_of_true hserver trivial
  | choose level socketOk =>
      cases hstep
      cases socketOk with
      | true =>
          refine ⟨own, levels ++ [level], ⟨h.own, h.fd, ?_⟩, fun _ => ?_⟩
          · simp [h.commands]
          · exact iff_of_true (target_concat own levels level) nofun
      | false =>
          refine ⟨own, levels, ⟨h.own, h.fd, h.commands⟩, fun hserver => ?_⟩
          rw [hserver]
          exact ⟨fun heq _ => heq.symm, fun heq => (heq rfl).symm⟩
  | receive =>
      simp only [System.step] at hstep
      split at hstep
      · cases hstep
      · split at hstep
        · cases hstep
        · split at hstep
          all_goals
            cases hstep
            exact ⟨own, levels, h.frame rfl rfl, fun hserver => iff_of_true hserver trivial⟩
  | endRecord | loseRecord _ =>
      obtain ⟨_, hstep⟩ := Option.ite_none_right_eq_some.mp hstep
      cases hstep
      exact ⟨own, levels, h.frame rfl rfl, fun hserver => iff_of_true hserver trivial⟩
  | loseCommand i =>
      obtain ⟨hi, hstep⟩ := Option.ite_none_right_eq_some.mp hstep
      cases hstep
      have hlength : s.commands.length = levels.length := by rw [h.commands, List.length_map]
      refine ⟨own, levels.eraseIdx i, ⟨h.own, h.fd, ?_⟩, fun hserver => ?_⟩
      · change s.commands.eraseIdx i = _
        rw [h.commands, List.eraseIdx_map]
      · change target own (levels.eraseIdx i) = s.server ↔ (i + 1 = s.commands.length → _)
        rcases Nat.lt_or_ge (i + 1) levels.length with hlt | hge
        · rw [target_eraseIdx hlt]
          exact iff_of_true hserver fun heq => by omega
        · have hlast : i + 1 = levels.length := by omega
          have hdrop : levels.eraseIdx i = levels.dropLast := by
            rw [← List.eraseIdx_length_sub_one, ← hlast, Nat.add_sub_cancel]
          rw [hdrop, h.commands, ← List.map_dropLast, h.own, listenForCommands_serverCommands,
            List.length_map, Except.ok.injEq, Int.natCast_inj, toNat_injective.eq_iff]
          exact ⟨fun heq _ => heq, fun heq => heq hlast⟩

end Levels

/-- On every run: whenever the commands on their way have been taken, the client sends the
calls at or above the server's level, exactly as long as every step keeps the level. -/
theorem levels_agree_iff (clientFd : Nat) (acts : List Action) :
    StatesMeet step Agrees (State.initial clientFd) acts ↔
      StepsMeet step KeepsLevel (State.initial clientFd) acts := by
  have hstart : Wired (State.initial clientFd) .debug [] := ⟨rfl, by simp [State.initial], rfl⟩
  refine statesMeet_iff_stepsMeet (I := fun s => ∃ own levels, Wired s own levels) ?_ ?_
    ⟨_, _, hstart⟩ (hstart.agrees_iff.mpr rfl) acts
  · rintro s a t ⟨own, levels, hwired⟩ hstep
    obtain ⟨own', levels', hwired', _⟩ := hwired.step hstep
    exact ⟨own', levels', hwired'⟩
  · rintro s a t ⟨own, levels, hwired⟩ hs hstep
    obtain ⟨own', levels', hwired', hexact⟩ := hwired.step hstep
    rw [hwired'.agrees_iff]
    exact hexact (hwired.agrees_iff.mp hs)

/-- The last command is lost, and the client goes on with the level it has. -/
example : ∃ s t, run step (State.initial 3) [.choose .error true] = some s ∧
    ¬ KeepsLevel s (.loseCommand 0) ∧ step s (.loseCommand 0) = some t ∧ ¬ Agrees t := by
  refine ⟨_, _, rfl, fun hkeeps => ?_, rfl, ?_⟩
  · have hsame := hkeeps rfl
    cases hsame
  · have hwired : Wired { State.initial 3 with server := .error } .debug [] :=
      ⟨rfl, by simp [State.initial], rfl⟩
    change ¬ Agrees { State.initial 3 with server := .error }
    rw [hwired.agrees_iff]
    decide

end Unx511.Assignment3.System
