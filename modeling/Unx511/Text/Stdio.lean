import Unx511.Text.CString
import Unx511.Text.Istream
import Unx511.Text.Lines

/-!
The loop `while (fgets(line, size, file))`: the pieces of a text that it sees, and how
they lie in the lines of the text; and what `sscanf` reads from a piece. Nothing here
knows what the text is about.
-/

namespace Unx511.Text

/-- At most `room` characters, up to a newline, and the text behind them. -/
def fgets : Nat → List Char → List Char × List Char
  | 0, text => ([], text)
  | _ + 1, [] => ([], [])
  | room + 1, c :: rest =>
      if c = '\n' then ([c], rest) else (c :: (fgets room rest).1, (fgets room rest).2)

theorem fgets_append (room : Nat) (text : List Char) :
    (fgets room text).1 ++ (fgets room text).2 = text := by
  induction room generalizing text with
  | zero => rfl
  | succ room ih =>
      cases text with
      | nil => rfl
      | cons c rest =>
          unfold fgets
          split
          · rfl
          · rw [List.cons_append, ih]

theorem length_fgets_lt {room : Nat} {text : List Char} (hroom : 0 < room) (htext : text ≠ []) :
    (fgets room text).2.length < text.length := by
  have hnonempty : (fgets room text).1 ≠ [] := by
    obtain ⟨n, rfl⟩ : ∃ n, room = n + 1 := ⟨room - 1, by omega⟩
    obtain ⟨c, rest, rfl⟩ := List.exists_cons_of_ne_nil htext
    unfold fgets
    split <;> exact List.cons_ne_nil _ _
  have hpos := List.length_pos_of_ne_nil hnonempty
  have hlength := congrArg List.length (fgets_append room text)
  rw [List.length_append] at hlength
  omega

/-- The pieces that the loop sees, when the buffer has room for a character and its NUL. -/
def fgetsAll (size : Nat) (text : List Char) : List (List Char) :=
  if h : 1 < size ∧ text ≠ [] then
    (fgets (size - 1) text).1 :: fgetsAll size (fgets (size - 1) text).2
  else []
termination_by text.length
decreasing_by exact length_fgets_lt (by omega) h.2

/-! The lines of a text, with their newlines. -/

/-- Every line with the newline that ends it. -/
def fullLines : List Char → List (List Char)
  | [] => []
  | c :: rest =>
      if c = '\n' then [c] :: fullLines rest
      else
        match fullLines rest with
        | [] => [[c]]
        | line :: lines => (c :: line) :: lines

theorem fullLines_eq_nil_iff {text : List Char} : fullLines text = [] ↔ text = [] := by
  cases text with
  | nil => simp [fullLines]
  | cons c rest =>
      unfold fullLines
      split
      · simp
      · split <;> simp

theorem fullLines_line {line : List Char} (hline : '\n' ∉ line) (rest : List Char) :
    fullLines (line ++ '\n' :: rest) = (line ++ ['\n']) :: fullLines rest := by
  induction line with
  | nil => rw [List.nil_append, fullLines, if_pos rfl, List.nil_append]
  | cons c line ih =>
      rw [List.mem_cons, not_or] at hline
      rw [List.cons_append, fullLines, if_neg (Ne.symm hline.1), ih hline.2]
      rfl

theorem fullLines_flatMap {lines : List (List Char)} (hlines : ∀ line ∈ lines, '\n' ∉ line)
    (rest : List Char) :
    fullLines (lines.flatMap (· ++ ['\n']) ++ rest) =
      lines.map (· ++ ['\n']) ++ fullLines rest := by
  induction lines with
  | nil => rfl
  | cons line lines ih =>
      rw [List.flatMap_cons, List.append_assoc, List.append_assoc, List.singleton_append,
        fullLines_line (hlines line List.mem_cons_self),
        ih fun line hline => hlines line (List.mem_cons_of_mem _ hline)]
      rfl

theorem ne_nil_of_mem {text line : List Char} (hline : line ∈ fullLines text) : line ≠ [] := by
  induction text generalizing line with
  | nil => cases hline
  | cons c rest ih =>
      unfold fullLines at hline
      split at hline
      · rcases List.mem_cons.mp hline with rfl | hline
        · exact List.cons_ne_nil _ _
        · exact ih hline
      · split at hline
        · rw [List.mem_singleton.mp hline]
          exact List.cons_ne_nil _ _
        · rename_i first lines hlines
          rcases List.mem_cons.mp hline with rfl | hline
          · exact List.cons_ne_nil _ _
          · exact ih (hlines ▸ List.mem_cons_of_mem _ hline)

/-- The line without its newline. -/
def chomp (line : List Char) : List Char := line.takeWhile (· ≠ '\n')

theorem chomp_cons {c : Char} (hc : c ≠ '\n') (line : List Char) :
    chomp (c :: line) = c :: chomp line :=
  List.takeWhile_cons_of_pos (decide_eq_true hc)

theorem getlines_eq_map_chomp (text : List Char) : getlines text = (fullLines text).map chomp := by
  induction text with
  | nil => rfl
  | cons c rest ih =>
      unfold getlines fullLines
      by_cases hc : c = '\n'
      · rw [if_pos hc, if_pos hc, List.map_cons, ih, hc]
        rfl
      · rw [if_neg hc, if_neg hc, ih]
        cases fullLines rest with
        | nil =>
            rw [List.map_cons, chomp_cons hc]
            rfl
        | cons line lines => rw [List.map_cons, List.map_cons, chomp_cons hc]

/-- A line has no other newline than the one at its end. -/
theorem eq_chomp_of_mem {text line : List Char} (hline : line ∈ fullLines text) :
    line = chomp line ∨ line = chomp line ++ ['\n'] := by
  induction text generalizing line with
  | nil => cases hline
  | cons c rest ih =>
      unfold fullLines at hline
      by_cases hc : c = '\n'
      · rw [if_pos hc, List.mem_cons] at hline
        rcases hline with rfl | hline
        · right
          rw [hc]
          rfl
        · exact ih hline
      · rw [if_neg hc] at hline
        cases hlines : fullLines rest with
        | nil =>
            rw [hlines, List.mem_singleton] at hline
            left
            rw [hline, chomp_cons hc]
            rfl
        | cons first lines =>
            rw [hlines] at ih
            rw [hlines, List.mem_cons] at hline
            rcases hline with rfl | hline
            · rw [chomp_cons hc]
              rcases ih List.mem_cons_self with hfirst | hfirst
              · exact .inl (congrArg (c :: ·) hfirst)
              · exact .inr (congrArg (c :: ·) hfirst)
            · exact ih (List.mem_cons_of_mem _ hline)

/-- A word without a newline begins a line with or without its newline. -/
theorem isPrefixOf_chomp {word : List Char} (hword : '\n' ∉ word) (line : List Char) :
    word.isPrefixOf (chomp line) = word.isPrefixOf line := by
  rw [Bool.eq_iff_iff, List.isPrefixOf_iff_prefix, List.isPrefixOf_iff_prefix]
  constructor
  · exact fun h => h.trans (List.takeWhile_prefix _)
  · rintro ⟨rest, rfl⟩
    unfold chomp
    have hall : ∀ c ∈ word, decide (c ≠ '\n') = true :=
      fun c hc => decide_eq_true fun heq => hword (heq ▸ hc)
    rw [List.takeWhile_append_of_pos hall]
    exact List.prefix_append _ _

/-! The pieces of a line. -/

theorem length_drop_lt {n : Nat} {line : List Char} (hn : 0 < n) (hline : line ≠ []) :
    (line.drop n).length < line.length := by
  have hpos := List.length_pos_of_ne_nil hline
  rw [List.length_drop]
  omega

/-- `n` characters each, and what is left in the last one. -/
def chunks (n : Nat) (line : List Char) : List (List Char) :=
  if _ : 0 < n ∧ line ≠ [] then line.take n :: chunks n (line.drop n) else []
termination_by line.length
decreasing_by
  rename_i h
  exact length_drop_lt h.1 h.2

@[simp] theorem chunks_nil (n : Nat) : chunks n [] = [] := by
  rw [chunks, dif_neg (by simp)]

theorem chunks_of_ne_nil {n : Nat} (hn : 0 < n) {line : List Char} (hline : line ≠ []) :
    chunks n line = line.take n :: chunks n (line.drop n) := by
  rw [chunks, dif_pos ⟨hn, hline⟩]

theorem chunks_of_length_le {n : Nat} {line : List Char} (hne : line ≠ []) (h : line.length ≤ n) :
    chunks n line = [line] := by
  have hn : 0 < n := (List.length_pos_of_ne_nil hne).trans_le h
  rw [chunks_of_ne_nil hn hne, List.take_of_length_le h, List.drop_eq_nil_of_le h, chunks_nil]

/-- A short line is one piece. -/
theorem tail_chunks_of_le {n : Nat} {line : List Char} (h : line.length ≤ n) :
    (chunks n line).tail = [] := by
  rw [chunks]
  split
  · rw [List.drop_eq_nil_of_le h, chunks_nil]
    rfl
  · rfl

theorem fullLines_fgets {text line : List Char} {lines : List (List Char)}
    (htext : fullLines text = line :: lines) (room : Nat) :
    (fgets room text).1 = line.take room ∧
      fullLines (fgets room text).2 =
        if line.length ≤ room then lines else line.drop room :: lines := by
  induction text generalizing line lines room with
  | nil => cases htext
  | cons c rest ih =>
      cases room with
      | zero =>
          have hline : line ≠ [] := ne_nil_of_mem (htext ▸ List.mem_cons_self)
          have hlong : ¬ line.length ≤ 0 := by simpa using hline
          rw [if_neg hlong]
          exact ⟨rfl, htext⟩
      | succ room =>
          unfold fgets
          unfold fullLines at htext
          by_cases hc : c = '\n'
          · rw [if_pos hc] at htext ⊢
            cases htext
            simp
          · rw [if_neg hc] at htext ⊢
            cases hrest : fullLines rest with
            | nil =>
                rw [hrest] at htext
                cases htext
                rw [fullLines_eq_nil_iff.mp hrest]
                cases room <;> simp [fgets, fullLines]
            | cons first lines' =>
                rw [hrest] at htext
                cases htext
                obtain ⟨hpiece, hleft⟩ := ih hrest room
                refine ⟨?_, ?_⟩
                · rw [hpiece, List.take_succ_cons]
                · rw [hleft, List.drop_succ_cons, List.length_cons]
                  simp only [Nat.add_le_add_iff_right]

/-- The loop sees each line in pieces that fill the buffer. -/
theorem fgetsAll_eq {size : Nat} (hsize : 1 < size) (text : List Char) :
    fgetsAll size text = (fullLines text).flatMap (chunks (size - 1)) := by
  induction hlength : text.length using Nat.strong_induction_on generalizing text with
  | h n ih =>
      by_cases htext : text = []
      · rw [fgetsAll, dif_neg (by simp [htext]), htext]
        rfl
      · have hroom : 0 < size - 1 := by omega
        obtain ⟨line, lines, hlines⟩ :=
          List.exists_cons_of_ne_nil (mt fullLines_eq_nil_iff.mp htext)
        have hline : line ≠ [] := ne_nil_of_mem (hlines ▸ List.mem_cons_self)
        obtain ⟨hpiece, hleft⟩ := fullLines_fgets hlines (size - 1)
        rw [fgetsAll, dif_pos ⟨hsize, htext⟩,
          ih _ (hlength ▸ length_fgets_lt hroom htext) _ rfl, hpiece, hleft, hlines,
          List.flatMap_cons, chunks_of_ne_nil hroom hline]
        split
        · rename_i hshort
          rw [List.drop_eq_nil_of_le hshort, chunks_nil]
          rfl
        · rfl

/-- The pieces, but for the first of each line, in front of the first line with `p`. -/
def laterPieces (p : List Char → Bool) (n : Nat) (lines : List (List Char)) : List (List Char) :=
  (lines.takeWhile fun line => !p line).flatMap fun line => (chunks n line).tail

/-- The first piece with a property that the beginning of a line decides. -/
theorem find?_chunks {p : List Char → Bool} {n : Nat} (hn : 0 < n) (hnil : p [] = false)
    (htake : ∀ line, p (line.take n) = p line) (lines : List (List Char)) :
    (lines.flatMap (chunks n)).find? p =
      ((laterPieces p n lines).find? p).or ((lines.find? p).map (List.take n)) := by
  induction lines with
  | nil => rfl
  | cons line lines ih =>
      rw [List.flatMap_cons, List.find?_append, ih]
      unfold laterPieces
      cases hline : p line with
      | true =>
          have hne : line ≠ [] := by
            rintro rfl
            cases hnil.symm.trans hline
          have hfirst : p (line.take n) = true := (htake line).trans hline
          rw [chunks_of_ne_nil hn hne, List.find?_cons_of_pos hfirst,
            List.takeWhile_cons_of_neg (by simp [hline]), List.find?_cons_of_pos hline]
          rfl
      | false =>
          have hchunks : (chunks n line).find? p = (chunks n line).tail.find? p := by
            by_cases hne : line = []
            · rw [hne, chunks_nil]
              rfl
            · have hfirst : ¬ p (line.take n) = true := by simp [htake, hline]
              rw [chunks_of_ne_nil hn hne, List.find?_cons_of_neg hfirst]
              rfl
          rw [hchunks, List.takeWhile_cons_of_pos (by simp [hline]), List.flatMap_cons,
            List.find?_append, List.find?_cons_of_neg (by simp [hline]), Option.or_assoc]

/-! What `sscanf` reads from a piece. -/

/-- `sscanf(text, "%d", &old)`, for a number that an `int` holds. -/
def sscanfInt (text : List Char) (old : Int) : Int :=
  match scanInt (cString '\x00' text) with
  | .number value _ => value
  | _ => old

/-- `sscanf(text, "%s", old)` -/
def sscanfWord (text old : List Char) : List Char :=
  match ((cString '\x00' text).dropWhile isSpace).takeWhile fun c => !isSpace c with
  | [] => old
  | word => word

/-- A newline behind the text stays behind what is read. -/
theorem scanInt_concat_newline (text : List Char) :
    scanInt (text ++ ['\n']) =
      match scanInt text with
      | .blank => .blank
      | .noNumber rest => .noNumber (rest ++ ['\n'])
      | .number value rest => .number value (rest ++ ['\n']) := by
  unfold scanInt
  rw [List.dropWhile_append]
  cases hskip : text.dropWhile isSpace with
  | nil => rfl
  | cons c cs =>
      have hsign := takeSign_append (List.cons_ne_nil c cs) ['\n']
      have hdigits : ∀ digits : List Char,
          (digits ++ ['\n']).takeWhile Char.isDigit = digits.takeWhile Char.isDigit ∧
            (digits ++ ['\n']).dropWhile Char.isDigit = digits.dropWhile Char.isDigit ++ ['\n'] := by
        intro digits
        have hnewline : Char.isDigit '\n' = false := by decide
        induction digits with
        | nil => simp [hnewline]
        | cons d digits ih =>
            rw [List.cons_append]
            cases hd : d.isDigit <;> simp [hd, ih]
      simp only [List.isEmpty_cons, Bool.false_eq_true, if_false, List.cons_append] at hsign ⊢
      rw [hsign]
      simp only [hdigits]
      split <;> rfl

/-- It makes no difference to the number. -/
theorem sscanfInt_concat_newline (text : List Char) (old : Int) :
    sscanfInt (text ++ ['\n']) old = sscanfInt text old := by
  unfold sscanfInt
  by_cases hmem : '\x00' ∈ text
  · obtain ⟨front, rest, rfl, hfront⟩ := List.eq_append_cons_of_mem hmem
    rw [List.append_assoc, List.cons_append, cString_terminated hfront, cString_terminated hfront]
  · have hmem' : '\x00' ∉ text ++ ['\n'] := by simpa using hmem
    rw [cString_eq_self hmem', cString_eq_self hmem, scanInt_concat_newline]
    cases scanInt text <;> rfl

/-- The first word of a text. -/
def firstWord (text : List Char) : List Char :=
  (text.dropWhile isSpace).takeWhile fun c => !isSpace c

theorem firstWord_spaces {spaces : List Char} (hspaces : ∀ c ∈ spaces, isSpace c = true)
    (text : List Char) : firstWord (spaces ++ text) = firstWord text := by
  unfold firstWord
  rw [List.dropWhile_append_of_pos hspaces]

theorem firstWord_concat_newline (text : List Char) :
    firstWord (text ++ ['\n']) = firstWord text := by
  unfold firstWord
  rw [List.dropWhile_append]
  cases text.dropWhile isSpace with
  | nil => rfl
  | cons c rest =>
      simp only [List.isEmpty_cons, Bool.false_eq_true, if_false]
      induction c :: rest with
      | nil => rfl
      | cons d word ih => rw [List.cons_append, List.takeWhile_cons, List.takeWhile_cons, ih]

theorem sscanfWord_eq (text old : List Char) :
    sscanfWord text old =
      if firstWord (cString '\x00' text) = [] then old else firstWord (cString '\x00' text) := by
  unfold sscanfWord firstWord
  split
  · next hnil => rw [if_pos hnil]
  · next hword => rw [if_neg hword]

/-- `%d` skips white space. -/
theorem scanInt_spaces {spaces : List Char} (hspaces : ∀ c ∈ spaces, isSpace c = true)
    (text : List Char) : scanInt (spaces ++ text) = scanInt text := by
  unfold scanInt
  rw [List.dropWhile_append_of_pos hspaces]

end Unx511.Text
