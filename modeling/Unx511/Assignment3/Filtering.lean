import Unx511.Assignment3.LogServer

/-!
What a dump of the log shows. The writer puts the level into one field of a
record, the reader searches a whole physical line for the four words. They agree
on a record exactly when its free text does not mislead the search: no word of a
higher level in it, and on the lines behind a newline the record's own word.
-/

namespace Unx511.Assignment3

open Unx511.Text

/-- `Log` sends a datagram for this call. -/
def Logger.logged (logger : Logger) (call : Call) : Bool := (log logger call).isSome

/-- `server_log.txt` after these calls, when every datagram arrives, in order. -/
def stored (logger : Logger) (calls : List Call) : List Char :=
  calls.foldl (fun file call => (log logger call).elim file fun datagram =>
    receiveLogs datagram file) []

/-- A line of the file, and whether it is the blank one behind a record. -/
structure FileLine where
  text : List Char
  separator : Bool

def recordLines (record : List Char) : List FileLine :=
  (record.splitOn '\n').map (fun text => ⟨text, false⟩) ++ [⟨[], true⟩]

def fileLines (logger : Logger) (calls : List Call) : List FileLine :=
  (calls.filter logger.logged).flatMap fun call => recordLines call.record

/-- Between its first and its last line a dump shows lines of the file which are,
separators aside, the records that pass, whole and in order. -/
def Filters (exactMatch : Bool) (server : LogLevel) (logger : Logger) (calls : List Call) : Prop :=
  ∃ shown : List FileLine,
    shown.Sublist (fileLines logger calls) ∧
    dumpLogFile exactMatch server (some (stored logger calls)) =
      dumpHeader exactMatch server :: shown.map (·.text) ++ [dumpFooter] ∧
    (shown.filter fun line => !line.separator).map (·.text) =
      ((calls.filter logger.logged).filter fun call =>
        LogLevel.passes exactMatch server call.level).flatMap
          fun call => call.record.splitOn '\n'

/-- No word of a higher level is in this text. -/
def NoHigher (level : LogLevel) (text : List Char) : Prop :=
  ∀ higher : LogLevel, level.toNat < higher.toNat → ¬ higher.word <:+: text

/-- The free text of a record does not mislead the reader. DEBUG is the level of a
line without any word. -/
structure Clear (level : LogLevel) (free : List Char) : Prop where
  first : ∀ line ∈ (free.splitOn '\n').head?, NoHigher level line
  later : ∀ line ∈ (free.splitOn '\n').tail,
    (level = .debug ∨ level.word <:+: line) ∧ NoHigher level line

/-! The level of one line. -/

theorem LogLevel.forall_iff {p : LogLevel → Prop} :
    (∀ level, p level) ↔ p .debug ∧ p .warning ∧ p .error ∧ p .critical := by
  constructor
  · exact fun h => ⟨h _, h _, h _, h _⟩
  · rintro ⟨hdebug, hwarning, herror, hcritical⟩ level
    cases level with
    | debug => exact hdebug
    | warning => exact hwarning
    | error => exact herror
    | critical => exact hcritical

theorem getLogLevelFromString_iff {level : LogLevel} {line : List Char} :
    getLogLevelFromString line = level ↔
      (level = .debug ∨ level.word <:+: line) ∧ NoHigher level line := by
  rw [NoHigher, LogLevel.forall_iff]
  unfold getLogLevelFromString
  by_cases hcritical : LogLevel.critical.word <:+: line
  · rw [if_pos hcritical]
    cases level <;> simp [hcritical, LogLevel.toNat]
  · rw [if_neg hcritical]
    by_cases herror : LogLevel.error.word <:+: line
    · rw [if_pos herror]
      cases level <;> simp [hcritical, herror, LogLevel.toNat]
    · rw [if_neg herror]
      by_cases hwarning : LogLevel.warning.word <:+: line
      · rw [if_pos hwarning]
        cases level <;> simp [hcritical, herror, hwarning, LogLevel.toNat]
      · rw [if_neg hwarning]
        cases level <;> simp [hcritical, herror, hwarning, LogLevel.toNat]

theorem LogLevel.blank_not_mem_word (level : LogLevel) : ' ' ∉ level.word := by
  cases level <;> decide

theorem LogLevel.newline_not_mem_word (level : LogLevel) : '\n' ∉ level.word := by
  cases level <;> decide

theorem noHigher_append_cons_iff {level : LogLevel} {front back : List Char} :
    NoHigher level (front ++ ' ' :: back) ↔ NoHigher level front ∧ NoHigher level back := by
  simp only [NoHigher, infix_append_cons_iff (LogLevel.blank_not_mem_word _), not_or]
  exact ⟨fun h => ⟨fun l hl => (h l hl).1, fun l hl => (h l hl).2⟩,
    fun h l hl => ⟨h.1 l hl, h.2 l hl⟩⟩

/-- The words of the levels above DEBUG share a letter. -/
theorem LogLevel.mem_word_of_lt {level higher : LogLevel} (h : level.toNat < higher.toNat) :
    'R' ∈ higher.word := by
  cases higher with
  | debug => cases h
  | warning | error | critical => decide

theorem noHigher_putTime (level : LogLevel) (tm : Tm) : NoHigher level (putTime tm) :=
  fun _ hhigher => not_infix_of_not_mem (LogLevel.mem_word_of_lt hhigher)
    (not_mem_putTime (.inr (by decide)))

theorem noHigher_word (level : LogLevel) : NoHigher level level.word := by
  rw [NoHigher, LogLevel.forall_iff]
  cases level <;> decide

/-- The first physical line of a record. -/
theorem firstLine_level (call : Call) (line : List Char) :
    getLogLevelFromString (putTime call.tm ++ ' ' :: (call.level.word ++ ' ' :: line)) =
        call.level ↔
      NoHigher call.level line := by
  rw [getLogLevelFromString_iff, noHigher_append_cons_iff, noHigher_append_cons_iff]
  have hword : call.level.word <:+: putTime call.tm ++ ' ' :: (call.level.word ++ ' ' :: line) :=
    ⟨putTime call.tm ++ [' '], ' ' :: line, by simp⟩
  constructor
  · exact fun h => h.2.2.2
  · exact fun h => ⟨.inr hword, noHigher_putTime _ _, noHigher_word _, h⟩

/-- The reader finds the level of a record on each of its lines exactly when its free
text is clear. -/
theorem record_level_iff (call : Call) :
    (∀ line ∈ call.record.splitOn '\n', getLogLevelFromString line = call.level) ↔
      Clear call.level call.free := by
  obtain ⟨line, lines, hfree⟩ := List.exists_cons_of_ne_nil (List.splitOn_ne_nil '\n' call.free)
  have hrecord : call.record.splitOn '\n' =
      (putTime call.tm ++ ' ' :: (call.level.word ++ ' ' :: line)) :: lines := by
    have hfront : '\n' ∉ putTime call.tm ++ ' ' :: (call.level.word ++ [' ']) := by
      have htime : '\n' ∉ putTime call.tm := not_mem_putTime (.inl (by decide))
      have hword := call.level.newline_not_mem_word
      simp [htime, hword]
    have hsplit : call.record =
        (putTime call.tm ++ ' ' :: (call.level.word ++ [' '])) ++ call.free := by
      simp [Call.record]
    rw [hsplit, splitOn_append hfront, hfree]
    simp
  rw [hrecord, List.forall_mem_cons, firstLine_level]
  simp only [getLogLevelFromString_iff]
  constructor
  · rintro ⟨hfirst, hlater⟩
    refine ⟨?_, ?_⟩
    · rw [hfree]
      rintro _ ⟨⟩
      exact hfirst
    · rw [hfree]
      exact hlater
  · rintro ⟨hfirst, hlater⟩
    rw [hfree] at hfirst hlater
    exact ⟨hfirst line rfl, hlater⟩

/-! The lines of the file. -/

theorem log_of_logged {logger : Logger} {call : Call} (h : logger.logged call = true) :
    log logger call = some call.record := by
  unfold Logger.logged log at h
  unfold log
  split at h
  case isTrue => cases h
  case isFalse hlevel =>
    split at h
    case isTrue hfd => rw [if_neg hlevel, if_pos hfd]
    case isFalse => cases h

theorem receiveLogs_record {call : Call} (hlength : call.record.length ≤ BUF_LEN)
    (file : List Char) :
    receiveLogs call.record file = file ++ (call.record ++ ['\n', '\n']) := by
  have hpos : 0 < call.record.length := by
    simp only [Call.record, List.length_append, List.length_cons]
    omega
  rw [receiveLogs, List.take_of_length_le hlength, if_pos hpos, logMessage]

theorem stored_eq (logger : Logger) {calls : List Call}
    (hlength : ∀ call ∈ calls, call.record.length ≤ BUF_LEN) :
    stored logger calls =
      (calls.filter logger.logged).flatMap fun call => call.record ++ ['\n', '\n'] := by
  have hfold : ∀ file, calls.foldl (fun file call => (log logger call).elim file fun datagram =>
      receiveLogs datagram file) file =
        file ++ (calls.filter logger.logged).flatMap fun call => call.record ++ ['\n', '\n'] := by
    induction calls with
    | nil => simp
    | cons call calls ih =>
        intro file
        rw [List.foldl_cons, ih fun c hc => hlength c (List.mem_cons_of_mem _ hc)]
        cases hlogged : logger.logged call with
        | true =>
            rw [log_of_logged hlogged, Option.elim_some,
              receiveLogs_record (hlength call List.mem_cons_self)]
            simp [hlogged]
        | false =>
            have hnone : log logger call = none := by simpa [Logger.logged] using hlogged
            simp [hnone, hlogged]
  exact hfold []

theorem getlines_stored (logger : Logger) {calls : List Call}
    (hlength : ∀ call ∈ calls, call.record.length ≤ BUF_LEN) :
    getlines (stored logger calls) = (fileLines logger calls).map (·.text) := by
  rw [stored_eq logger hlength, fileLines]
  induction calls.filter logger.logged with
  | nil => rfl
  | cons call rest ih =>
      rw [List.flatMap_cons, List.flatMap_cons, List.append_assoc, List.cons_append,
        getlines_append, List.singleton_append, ← List.nil_append ('\n' :: _), getlines_append,
        ih]
      simp [recordLines, Function.comp_def]

/-! The dump. -/

theorem clear_of_filters {logger : Logger} {calls : List Call} {call : Call}
    (h : Filters true call.level logger calls) (hmem : call ∈ calls)
    (hlogged : logger.logged call = true) : Clear call.level call.free := by
  rw [← record_level_iff]
  intro line hline
  obtain ⟨shown, _, hdump, hshown⟩ := h
  have hwanted : line ∈ (shown.filter fun l => !l.separator).map (·.text) := by
    rw [hshown, List.mem_flatMap]
    refine ⟨call, ?_, hline⟩
    simp [hmem, hlogged, LogLevel.passes]
  have hline : line ∈ shown.map (·.text) :=
    (List.filter_sublist.map _).subset hwanted
  rw [dumpLogFile, List.cons_append, List.cons_append, List.cons.injEq,
    List.append_cancel_right_eq] at hdump
  rw [← hdump.2] at hline
  have hpasses := List.of_mem_filter hline
  simpa [LogLevel.passes] using hpasses

/-- What is shown of one record. -/
theorem recordLines_shown (exactMatch : Bool) (server : LogLevel) {call : Call}
    (hclear : Clear call.level call.free) :
    (((recordLines call.record).filter fun line =>
        LogLevel.passes exactMatch server (getLogLevelFromString line.text)).filter
          fun line => !line.separator).map (·.text) =
      if LogLevel.passes exactMatch server call.level then call.record.splitOn '\n' else [] := by
  have hlevel := (record_level_iff call).mpr hclear
  have hseparator : ([⟨[], true⟩] : List FileLine).filter (fun line => !line.separator) = [] := rfl
  rw [List.filter_comm, recordLines, List.filter_append, hseparator, List.append_nil,
    List.filter_map, List.filter_map, List.map_map]
  have htexts : (call.record.splitOn '\n').filter
      ((fun line : FileLine => !line.separator) ∘ fun text => ⟨text, false⟩) =
        call.record.splitOn '\n' := List.filter_eq_self.mpr fun _ _ => rfl
  rw [htexts]
  split
  case isTrue hpasses =>
    rw [List.filter_eq_self.mpr]
    · exact List.map_id' _
    · intro text htext
      simpa [hlevel text htext] using hpasses
  case isFalse hpasses =>
    rw [List.filter_eq_nil_iff.mpr, List.map_nil]
    intro text htext
    simpa [hlevel text htext] using hpasses

theorem filters_of_clear {logger : Logger} {calls : List Call}
    (hlength : ∀ call ∈ calls, call.record.length ≤ BUF_LEN)
    (h : ∀ call ∈ calls, logger.logged call = true → Clear call.level call.free)
    (exactMatch : Bool) (server : LogLevel) : Filters exactMatch server logger calls := by
  refine ⟨(fileLines logger calls).filter fun line =>
    LogLevel.passes exactMatch server (getLogLevelFromString line.text), List.filter_sublist,
    ?_, ?_⟩
  · rw [dumpLogFile, Option.elim_some, getlines_stored logger hlength, List.filter_map]
    rfl
  · have hlogged : ∀ call ∈ calls.filter logger.logged, Clear call.level call.free := by
      intro call hcall
      rw [List.mem_filter] at hcall
      exact h call hcall.1 hcall.2
    rw [fileLines]
    generalize calls.filter logger.logged = logged at hlogged ⊢
    induction logged with
    | nil => rfl
    | cons call rest ih =>
        have hcall := recordLines_shown exactMatch server (hlogged call List.mem_cons_self)
        have hrest := ih fun c hc => hlogged c (List.mem_cons_of_mem _ hc)
        rw [List.flatMap_cons, List.filter_append, List.filter_append, List.map_append, hcall,
          hrest, List.filter_cons]
        split
        · rfl
        · rfl

/-- The dumps are right, of both kinds and for every server level, exactly when the
free text of every record is clear. -/
theorem filtering_iff (logger : Logger) {calls : List Call}
    (hlength : ∀ call ∈ calls, call.record.length ≤ BUF_LEN) :
    (∀ exactMatch server, Filters exactMatch server logger calls) ↔
      ∀ call ∈ calls, logger.logged call = true → Clear call.level call.free := by
  constructor
  · intro h call hmem hlogged
    exact clear_of_filters (h true call.level) hmem hlogged
  · intro h exactMatch server
    exact filters_of_clear hlength h exactMatch server

/-- One line without the letter that the higher words share. -/
theorem clear_of_plain (level : LogLevel) {free : List Char} (hnewline : '\n' ∉ free)
    (hletter : 'R' ∉ free) : Clear level free := by
  have hsplit : free.splitOn '\n' = [free] := List.splitOn_eq_singleton hnewline
  refine ⟨?_, ?_⟩
  · rw [hsplit]
    rintro _ ⟨⟩ higher hhigher
    exact not_infix_of_not_mem (LogLevel.mem_word_of_lt hhigher) hletter
  · rw [hsplit]
    nofun

/-- The call `Log(level, "a", "f", 7, message)`, at some time. -/
def demoCall (level : LogLevel) (message : List Char) : Call where
  level := level
  tm := ⟨2025, 8, 1, 12, 0, 0⟩
  file := ['a']
  function := ['f']
  line := 7
  message := message

def demoLogger : Logger := ⟨0, 3⟩

/-- A warning and an error, with messages that name no level. -/
def plainCalls : List Call := [demoCall .warning ['o', 'k'], demoCall .error ['n', 'o']]

theorem filtering_plain_messages :
    (∀ call ∈ plainCalls, call.record.length ≤ BUF_LEN) ∧
      ∀ exactMatch server, Filters exactMatch server demoLogger plainCalls := by
  have hlength : ∀ call ∈ plainCalls, call.record.length ≤ BUF_LEN := by decide
  refine ⟨hlength, (filtering_iff demoLogger hlength).mpr fun call hmem _ => ?_⟩
  rcases List.mem_pair.mp hmem with rfl | rfl
  · exact clear_of_plain _ (by decide) (by decide)
  · exact clear_of_plain _ (by decide) (by decide)

/-- A warning whose message has the word ERROR is no warning to the reader. -/
theorem warning_shown_as_error :
    (demoCall .warning LogLevel.error.word).record.length ≤ BUF_LEN ∧
      demoLogger.logged (demoCall .warning LogLevel.error.word) = true ∧
      ¬ Filters true .warning demoLogger [demoCall .warning LogLevel.error.word] := by
  have hlogged : demoLogger.logged (demoCall .warning LogLevel.error.word) = true := by decide
  refine ⟨by decide, hlogged, fun h => ?_⟩
  have hfilters : Filters true (demoCall .warning LogLevel.error.word).level demoLogger
      [demoCall .warning LogLevel.error.word] := h
  have hclear := clear_of_filters hfilters (List.mem_singleton_self _) hlogged
  have hsplit : (demoCall .warning LogLevel.error.word).free.splitOn '\n' =
      [(demoCall .warning LogLevel.error.word).free] :=
    List.splitOn_eq_singleton (by decide)
  have hfirst := hclear.first
  rw [hsplit] at hfirst
  exact hfirst _ rfl .error (by decide) ⟨['a', ':', 'f', ':', '7', ' '], [], by decide⟩

end Unx511.Assignment3
