import Unx511.Assignment1.Worker
import Unx511.Text.Stdio

/-!
The search for "VmRSS:" in a status file: the loop of Lab 1's `memcheck.c`, and the one of
the workers of Assignment 1. Both look at what `fgets` puts into a buffer of 256 bytes, and
at nothing behind the first piece that begins so. The numbers are ones that an `int` holds.
-/

namespace Unx511.StatusScan

open Text

/-- `LINE_LEN` in `memcheck.c`, and the length of `line` in the workers. -/
def LINE_LEN : Nat := 256

def nameLabel : List Char := "Name:".toList

def vmRSSLabel : List Char := "VmRSS:".toList

/-- The loop of `memcheck.c`, with `name` and `rss`. -/
def memcheckScan : List (List Char) → List Char → Int → List Char × Int
  | [], name, rss => (name, rss)
  | line :: pieces, name, rss =>
      let name :=
        if nameLabel.isPrefixOf line then sscanfWord (line.drop nameLabel.length) name else name
      if vmRSSLabel.isPrefixOf line then (name, sscanfInt (line.drop vmRSSLabel.length) rss)
      else memcheckScan pieces name rss

/-- The loop of `dhsb_worker_process`, with `mem_usage`. -/
def workerScan : List (List Char) → Int → Int
  | [], mem_usage => mem_usage
  | line :: pieces, mem_usage =>
      if vmRSSLabel.isPrefixOf line then sscanfInt (line.drop vmRSSLabel.length) mem_usage
      else workerScan pieces mem_usage

/-- The number on a line that was found. -/
def number : Option (List Char) → Int → Int
  | none, previous => previous
  | some line, previous => sscanfInt (line.drop vmRSSLabel.length) previous

/-- What a reader of text lines obtains. -/
def firstVmRSS (content : List Char) (previous : Int) : Int :=
  number ((getlines content).find? vmRSSLabel.isPrefixOf) previous

/-- The pieces with which the lines in front of the first "VmRSS:" line go on. -/
def continuations (content : List Char) : List (List Char) :=
  laterPieces vmRSSLabel.isPrefixOf (LINE_LEN - 1) (fullLines content)

/-- No line goes on with a piece that begins with "VmRSS:", and the number of the first such
line is within the buffer; or the wrong number is the right one by chance. -/
def ReadsAlike (content : List Char) (previous : Int) : Prop :=
  match (continuations content).find? vmRSSLabel.isPrefixOf with
  | some piece => number (some piece) previous = firstVmRSS content previous
  | none =>
      ∀ line, (fullLines content).find? vmRSSLabel.isPrefixOf = some line →
        number (some (line.take (LINE_LEN - 1))) previous = number (some line) previous

theorem workerScan_eq (pieces : List (List Char)) (previous : Int) :
    workerScan pieces previous = number (pieces.find? vmRSSLabel.isPrefixOf) previous := by
  induction pieces with
  | nil => rfl
  | cons line pieces ih =>
      unfold workerScan
      split
      · rename_i hline
        rw [List.find?_cons_of_pos hline]
        rfl
      · rename_i hline
        rw [List.find?_cons_of_neg hline, ih]

/-- What a worker reads on the line that it found. -/
def readingOn : Option (List Char) → Assignment1.Reading
  | none => .noRss
  | some line =>
      match scanInt (cString '\x00' (line.drop vmRSSLabel.length)) with
      | .number value _ => .vmRss value
      | _ => .noRss

theorem update_readingOn (found : Option (List Char)) (mem_usage : Int) :
    (readingOn found).update mem_usage = number found mem_usage := by
  cases found with
  | none => rfl
  | some line =>
      simp only [readingOn, number, sscanfInt]
      cases scanInt (cString '\x00' (line.drop vmRSSLabel.length)) <;> rfl

/-- The reading of a worker, `none` being a file that cannot be opened. -/
def reading : Option (List Char) → Assignment1.Reading
  | none => .unreadable
  | some content => readingOn ((fgetsAll LINE_LEN content).find? vmRSSLabel.isPrefixOf)

/-- The alarm of a worker is about the number that its loop obtains. -/
theorem update_reading (content : List Char) (mem_usage : Int) :
    (reading (some content)).update mem_usage =
      workerScan (fgetsAll LINE_LEN content) mem_usage := by
  rw [workerScan_eq]
  exact update_readingOn _ mem_usage

/-- The two loops obtain the same number. -/
theorem memcheckScan_snd (pieces : List (List Char)) (name : List Char) (previous : Int) :
    (memcheckScan pieces name previous).2 = workerScan pieces previous := by
  induction pieces generalizing name with
  | nil => rfl
  | cons line pieces ih =>
      simp only [memcheckScan, workerScan]
      by_cases hline : vmRSSLabel.isPrefixOf line = true
      · rw [if_pos hline, if_pos hline]
      · rw [if_neg hline, if_neg hline]
        exact ih _

theorem isPrefixOf_take (line : List Char) :
    vmRSSLabel.isPrefixOf (line.take (LINE_LEN - 1)) = vmRSSLabel.isPrefixOf line := by
  have hlength : vmRSSLabel.length ≤ LINE_LEN - 1 := by decide
  rw [Bool.eq_iff_iff, List.isPrefixOf_iff_prefix, List.isPrefixOf_iff_prefix,
    List.prefix_take_iff, and_iff_left hlength]

/-- The first piece that begins with "VmRSS:". -/
theorem find?_fgetsAll (content : List Char) :
    (fgetsAll LINE_LEN content).find? vmRSSLabel.isPrefixOf =
      ((continuations content).find? vmRSSLabel.isPrefixOf).or
        (((fullLines content).find? vmRSSLabel.isPrefixOf).map (List.take (LINE_LEN - 1))) := by
  rw [fgetsAll_eq (by decide)]
  exact find?_chunks (by decide) rfl isPrefixOf_take (fullLines content)

theorem number_concat_newline {line : List Char} (hline : vmRSSLabel <+: line) (previous : Int) :
    number (some (line ++ ['\n'])) previous = number (some line) previous := by
  change sscanfInt ((line ++ ['\n']).drop vmRSSLabel.length) previous = _
  rw [List.drop_append_of_le_length hline.length_le]
  exact sscanfInt_concat_newline _ previous

theorem number_chomp {content line : List Char} (hmem : line ∈ fullLines content)
    (hline : vmRSSLabel.isPrefixOf line = true) (previous : Int) :
    number (some (chomp line)) previous = number (some line) previous := by
  rw [← isPrefixOf_chomp (by decide), List.isPrefixOf_iff_prefix] at hline
  rcases eq_chomp_of_mem hmem with hlast | hfull
  · rw [← hlast]
  · rw [← number_concat_newline hline, ← hfull]

/-- The lines may be searched with their newlines. -/
theorem firstVmRSS_eq (content : List Char) (previous : Int) :
    firstVmRSS content previous =
      number ((fullLines content).find? vmRSSLabel.isPrefixOf) previous := by
  have hcomp : vmRSSLabel.isPrefixOf ∘ chomp = vmRSSLabel.isPrefixOf :=
    funext (isPrefixOf_chomp (by decide))
  unfold firstVmRSS
  rw [getlines_eq_map_chomp, List.find?_map, hcomp]
  cases hfind : (fullLines content).find? vmRSSLabel.isPrefixOf with
  | none => rfl
  | some line =>
      exact number_chomp (List.mem_of_find?_eq_some hfind) (List.find?_some hfind) previous

theorem workerScan_iff (content : List Char) (previous : Int) :
    workerScan (fgetsAll LINE_LEN content) previous = firstVmRSS content previous ↔
      ReadsAlike content previous := by
  unfold ReadsAlike
  rw [workerScan_eq, find?_fgetsAll]
  cases (continuations content).find? vmRSSLabel.isPrefixOf with
  | some piece => rw [Option.some_or]
  | none =>
      rw [Option.none_or, firstVmRSS_eq]
      cases (fullLines content).find? vmRSSLabel.isPrefixOf with
      | none => simp
      | some line => simp

/-- A file whose lines all fit the buffer. -/
theorem readsAlike_of_length_le {content : List Char}
    (h : ∀ line ∈ fullLines content, line.length ≤ LINE_LEN - 1) (previous : Int) :
    ReadsAlike content previous := by
  have hnone : continuations content = [] := by
    unfold continuations laterPieces
    rw [List.flatMap_eq_nil_iff]
    intro line hline
    exact tail_chunks_of_le (h line (List.takeWhile_subset _ hline))
  unfold ReadsAlike
  rw [hnone]
  intro line hfind
  rw [List.take_of_length_le (h line (List.mem_of_find?_eq_some hfind))]

/-- For every content and every previous value each of the loops obtains the number on the
first text line that begins with "VmRSS:" exactly when it reads the file alike. -/
theorem scans_iff (content name : List Char) (previous : Int) :
    ((memcheckScan (fgetsAll LINE_LEN content) name previous).2 = firstVmRSS content previous ↔
        ReadsAlike content previous) ∧
      (workerScan (fgetsAll LINE_LEN content) previous = firstVmRSS content previous ↔
        ReadsAlike content previous) := by
  rw [memcheckScan_snd]
  exact ⟨workerScan_iff content previous, workerScan_iff content previous⟩

/-- A line of more than 255 characters, which goes on with "VmRSS: 7". -/
def continued : List Char := List.replicate 255 'x' ++ "VmRSS: 7".toList

theorem continued_taken :
    (memcheckScan (fgetsAll LINE_LEN continued) [] 0).2 = 7 ∧
      workerScan (fgetsAll LINE_LEN continued) 0 = 7 ∧ firstVmRSS continued 0 = 0 := by
  have hfirst : fgets 255 continued = (List.replicate 255 'x', "VmRSS: 7".toList) := by
    decide +kernel
  have hsecond : fgets 255 "VmRSS: 7".toList = ("VmRSS: 7".toList, []) := by decide
  have hpieces : fgetsAll LINE_LEN continued = [List.replicate 255 'x', "VmRSS: 7".toList] := by
    have hne : continued ≠ [] := by decide +kernel
    rw [fgetsAll, dif_pos ⟨by decide, hne⟩, show LINE_LEN - 1 = 255 from rfl, hfirst, fgetsAll,
      dif_pos ⟨by decide, by decide⟩, show LINE_LEN - 1 = 255 from rfl, hsecond, fgetsAll,
      dif_neg (by simp)]
  rw [hpieces]
  exact ⟨by decide, by decide, by decide +kernel⟩

end Unx511.StatusScan
