import Unx511.StatusScan
import Unx511.Text.Decimal

/-!
Lab 1, the report of `memcheck.c`: the way of `main` through "/proc", where processes end and
change while it goes on, and the line that it prints for each one above the threshold. Any
report reads back, also one about a process whose name looks like the rest of a line.
-/

namespace Unx511.Lab1

open Text StatusScan

def STATUS_PATH_LEN : Nat := 256

def RSS_THRESHOLD : Nat := 10000

def isNumber : List Char → Bool
  | [] => true
  | c :: str => if !c.isDigit then false else isNumber str

theorem isNumber_iff (str : List Char) : isNumber str = true ↔ ∀ c ∈ str, c.isDigit = true := by
  induction str with
  | nil => simp [isNumber]
  | cons c str ih => cases hc : c.isDigit <;> simp [isNumber, hc, ih]

/-- The file of a process. -/
def procStatus (d_name : List Char) : List Char :=
  "/proc/".toList ++ d_name ++ "/status".toList

/-- `status_path`; `snprintf` cuts what does not fit. -/
def statusPath (d_name : List Char) : List Char := (procStatus d_name).take (STATUS_PATH_LEN - 1)

/-- What `readdir` returns, with the files as `fopen` finds them in that turn of the loop. -/
structure Entry where
  d_name : List Char
  files : List Char → Option (List Char)

def pidField : List Char := "PID: ".toList

def nameField : List Char := " | Name: ".toList

def vmRSSField : List Char := " | VmRSS: ".toList

def unitField : List Char := " kB".toList

/-- The line of a process, up to its newline. -/
def reportLine (d_name name : List Char) (rss : Int) : List Char :=
  pidField ++ (d_name ++ (nameField ++ (name ++ (vmRSSField ++ (formatInt rss ++ unitField)))))

/-- `name` and `rss` behind the loop over the file. -/
def scan (content : List Char) : List Char × Int := memcheckScan (fgetsAll LINE_LEN content) [] 0

/-- A turn of the loop, with what it prints. -/
def Entry.prints (e : Entry) : List Char :=
  if !isNumber e.d_name then []
  else
    match e.files (statusPath e.d_name) with
    | none => []
    | some content =>
        if RSS_THRESHOLD < (scan content).2 then
          reportLine e.d_name (scan content).1 (scan content).2 ++ ['\n']
        else []

/-- `main` prints to the standard output and returns; `none` is an `opendir` that fails. -/
def main : Option (List Entry) → List Char × Int
  | none => ([], 1)
  | some entries => (entries.flatMap Entry.prints, 0)

structure Record where
  pid : List Char
  name : List Char
  vmRSS : Nat
  deriving DecidableEq, Repr

/-- What is printed for an entry. -/
def Entry.record (e : Entry) : Option Record :=
  if isNumber e.d_name then
    (e.files (statusPath e.d_name)).bind fun content =>
      if RSS_THRESHOLD < (scan content).2 then
        some ⟨e.d_name, (scan content).1, (scan content).2.toNat⟩
      else none
  else none

/-- None of the two labels is at the beginning. -/
def Silent (piece : List Char) : Prop :=
  nameLabel.isPrefixOf piece = false ∧ vmRSSLabel.isPrefixOf piece = false

instance (piece : List Char) : Decidable (Silent piece) := inferInstanceAs (Decidable (_ ∧ _))

/-- A process that runs. Its status file has `lines` behind the name, up to "VmRSS:", and that
in kB with the text behind its line. The threads of the kernel have no "VmRSS:". -/
structure Process where
  pid : Nat
  comm : List Char
  lines : List (List Char)
  vmRSS : Option (Nat × List Char)
  pid_le : pid ≤ 4194304
  comm_length : comm.length ≤ 64
  comm_plain : '\n' ∉ comm ∧ '\x00' ∉ comm
  lines_plain : ∀ line ∈ lines, '\n' ∉ line
  lines_silent : ∀ line ∈ lines, ∀ piece ∈ chunks (LINE_LEN - 1) (line ++ ['\n']), Silent piece
  vmRSS_int : ∀ kB ∈ vmRSS.map Prod.fst, kB ≤ 2147483647

namespace Process

def nameLine (p : Process) : List Char := nameLabel ++ '\t' :: p.comm

/-- The number is written with `%8lu`. -/
def padded (kB : Nat) : List Char := List.replicate (8 - (decimal kB).length) ' ' ++ decimal kB

def vmRSSLine (kB : Nat) : List Char := vmRSSLabel ++ '\t' :: (padded kB ++ unitField)

/-- "/proc/<pid>/status" -/
def status (p : Process) : List Char :=
  p.nameLine ++ '\n' :: (p.lines.flatMap (· ++ ['\n']) ++
    match p.vmRSS with
    | none => []
    | some (kB, rest) => vmRSSLine kB ++ '\n' :: rest)

/-- What the report is to say about it. -/
def record (p : Process) : Option Record :=
  p.vmRSS.bind fun (kB, _) =>
    if RSS_THRESHOLD < kB then some ⟨decimal p.pid, firstWord p.comm, kB⟩ else none

end Process

theorem memcheckScan_silent {pieces : List (List Char)} (h : ∀ piece ∈ pieces, Silent piece)
    (rest : List (List Char)) (name : List Char) (rss : Int) :
    memcheckScan (pieces ++ rest) name rss = memcheckScan rest name rss := by
  induction pieces with
  | nil => rfl
  | cons piece pieces ih =>
      obtain ⟨hname, hrss⟩ := h piece List.mem_cons_self
      simp only [List.cons_append, memcheckScan, hname, hrss, Bool.false_eq_true, if_false]
      exact ih fun piece hpiece => h piece (List.mem_cons_of_mem _ hpiece)

theorem memcheckScan_nameLine {comm : List Char} (hnul : '\x00' ∉ comm)
    (rest : List (List Char)) (rss : Int) :
    memcheckScan ((nameLabel ++ '\t' :: comm ++ ['\n']) :: rest) [] rss =
      memcheckScan rest (firstWord comm) rss := by
  have hname : nameLabel.isPrefixOf (nameLabel ++ '\t' :: comm ++ ['\n']) = true := rfl
  have hrss : vmRSSLabel.isPrefixOf (nameLabel ++ '\t' :: comm ++ ['\n']) = false := rfl
  have hdrop : (nameLabel ++ '\t' :: comm ++ ['\n']).drop nameLabel.length =
      ['\t'] ++ (comm ++ ['\n']) := rfl
  have htab : ∀ c ∈ ['\t'], isSpace c = true := by
    intro c hc
    rw [List.mem_singleton.mp hc]
    rfl
  have hplain : '\x00' ∉ ['\t'] ++ (comm ++ ['\n']) := by simp [hnul]
  have hword : sscanfWord (['\t'] ++ (comm ++ ['\n'])) [] = firstWord comm := by
    rw [sscanfWord_eq, cString_eq_self hplain, firstWord_spaces htab,
      firstWord_concat_newline]
    split
    · next hnil => exact hnil.symm
    · rfl
  simp only [memcheckScan, hname, hrss, hdrop, hword, Bool.false_eq_true, if_false, if_true]

theorem memcheckScan_vmRSSLine (kB : Nat) (rest : List (List Char)) (name : List Char)
    (rss : Int) :
    memcheckScan ((Process.vmRSSLine kB ++ ['\n']) :: rest) name rss = (name, (kB : Int)) := by
  have hname : nameLabel.isPrefixOf (Process.vmRSSLine kB ++ ['\n']) = false := rfl
  have hrss : vmRSSLabel.isPrefixOf (Process.vmRSSLine kB ++ ['\n']) = true := rfl
  have hspaces : ∀ c ∈ '\t' :: List.replicate (8 - (decimal kB).length) ' ',
      isSpace c = true := by
    intro c hc
    rcases List.mem_cons.mp hc with rfl | hc
    · rfl
    · rw [List.eq_of_mem_replicate hc]
      rfl
  have hdrop : (Process.vmRSSLine kB ++ ['\n']).drop vmRSSLabel.length =
      ('\t' :: List.replicate (8 - (decimal kB).length) ' ') ++
        (decimal kB ++ (unitField ++ ['\n'])) := by
    change '\t' :: (Process.padded kB ++ unitField) ++ ['\n'] = _
    simp only [Process.padded, List.append_assoc, List.cons_append]
  have hplain : '\x00' ∉ ('\t' :: List.replicate (8 - (decimal kB).length) ' ') ++
      (decimal kB ++ (unitField ++ ['\n'])) := by
    intro hmem
    rcases List.mem_append.mp hmem with hspace | hmem
    · exact absurd (hspaces _ hspace) (by decide)
    · rcases List.mem_append.mp hmem with hdigit | hunit
      · exact absurd (isDigit_of_mem_decimal hdigit) (by decide)
      · revert hunit
        decide
  have hscan : sscanfInt ((Process.vmRSSLine kB ++ ['\n']).drop vmRSSLabel.length) rss = kB := by
    have hunit : DigitsEnd (unitField ++ ['\n']) := digitsEnd_cons (c := ' ') rfl _
    rw [hdrop, sscanfInt, cString_eq_self hplain, scanInt_spaces hspaces, scanInt_decimal kB hunit]
  simp only [memcheckScan, hname, hrss, hscan, Bool.false_eq_true, if_false, if_true]

theorem newline_notMem_vmRSSLine (kB : Nat) : '\n' ∉ Process.vmRSSLine kB := by
  intro hmem
  simp only [Process.vmRSSLine, Process.padded, List.mem_append, List.mem_cons] at hmem
  rcases hmem with hlabel | htab | (hspace | hdigit) | hunit
  · revert hlabel
    decide
  · cases htab
  · cases List.eq_of_mem_replicate hspace
  · exact absurd (isDigit_of_mem_decimal hdigit) (by decide)
  · revert hunit
    decide

theorem length_vmRSSLine_le {kB : Nat} (h : kB ≤ 2147483647) :
    (Process.vmRSSLine kB ++ ['\n']).length ≤ LINE_LEN - 1 := by
  have hdigits : (decimal kB).length ≤ 10 := (length_decimal_le_iff (by decide)).mpr (by omega)
  have hlabels : vmRSSLabel.length = 6 ∧ unitField.length = 3 ∧ LINE_LEN = 256 := by decide
  simp only [Process.vmRSSLine, Process.padded, List.length_append, List.length_cons,
    List.length_replicate, List.length_nil]
  omega

/-- The loop finds the name and the number in a file of the kernel. -/
theorem scan_status (p : Process) :
    scan p.status = (firstWord p.comm, ((p.vmRSS.map Prod.fst).getD 0 : Int)) := by
  have hfirst : '\n' ∉ p.nameLine := by
    have hlabel : '\n' ∉ nameLabel := by decide
    simp [Process.nameLine, hlabel, p.comm_plain.1]
  have hfits : (p.nameLine ++ ['\n']).length ≤ LINE_LEN - 1 := by
    have hlabel : nameLabel.length = 5 ∧ LINE_LEN = 256 := by decide
    have hcomm := p.comm_length
    simp only [Process.nameLine, List.length_append, List.length_cons, List.length_nil]
    omega
  have hsilent : ∀ piece ∈ (p.lines.map (· ++ ['\n'])).flatMap (chunks (LINE_LEN - 1)),
      Silent piece := by
    intro piece hpiece
    obtain ⟨_, hline, hpiece⟩ := List.mem_flatMap.mp hpiece
    obtain ⟨line, hmem, rfl⟩ := List.mem_map.mp hline
    exact p.lines_silent line hmem piece hpiece
  unfold scan Process.status
  rw [fgetsAll_eq (by decide), fullLines_line hfirst, fullLines_flatMap p.lines_plain,
    List.flatMap_cons, List.flatMap_append, chunks_of_length_le (by simp) hfits,
    List.singleton_append, Process.nameLine, memcheckScan_nameLine p.comm_plain.2,
    memcheckScan_silent hsilent]
  cases hvmRSS : p.vmRSS with
  | none => rfl
  | some found =>
      obtain ⟨kB, rest⟩ := found
      have hint : kB ≤ 2147483647 := p.vmRSS_int kB (by rw [hvmRSS]; rfl)
      have hline := newline_notMem_vmRSSLine kB
      simp only
      rw [fullLines_line hline, List.flatMap_cons,
        chunks_of_length_le (by simp) (length_vmRSSLine_le hint), List.singleton_append,
        memcheckScan_vmRSSLine]
      rfl

/-- An entry of "/proc", with the process that it is about where that one runs. -/
inductive Entry.Shows (e : Entry) : Option Process → Prop where
  | other (hname : isNumber e.d_name = false) : Shows e none
  | ended {pid : Nat} (hpid : pid ≤ 4194304) (hname : e.d_name = decimal pid)
      (hfile : e.files (procStatus e.d_name) = none) : Shows e none
  | running (p : Process) (hname : e.d_name = decimal p.pid)
      (hfile : e.files (procStatus e.d_name) = some p.status) : Shows e (some p)

/-- The path of a process fits. -/
theorem statusPath_decimal {pid : Nat} (hpid : pid ≤ 4194304) :
    statusPath (decimal pid) = procStatus (decimal pid) := by
  have hdigits : (decimal pid).length ≤ 7 := (length_decimal_le_iff (by decide)).mpr (by omega)
  have hparts : "/proc/".toList.length = 6 ∧ "/status".toList.length = 7 ∧
      STATUS_PATH_LEN = 256 := by decide
  apply List.take_of_length_le
  simp only [procStatus, List.length_append]
  omega

theorem isNumber_decimal (pid : Nat) : isNumber (decimal pid) = true :=
  (isNumber_iff _).mpr fun _ hc => isDigit_of_mem_decimal hc

theorem Entry.Shows.record {e : Entry} {shown : Option Process} (h : e.Shows shown) :
    e.record = shown.bind Process.record := by
  cases h with
  | other hname =>
      unfold Entry.record
      rw [hname]
      rfl
  | ended hpid hname hfile =>
      unfold Entry.record
      rw [hname] at hfile ⊢
      rw [isNumber_decimal, statusPath_decimal hpid, hfile]
      rfl
  | running p hname hfile =>
      unfold Entry.record
      rw [hname] at hfile ⊢
      rw [isNumber_decimal, statusPath_decimal p.pid_le, hfile]
      simp only [if_true, Option.bind_some, scan_status, Process.record]
      cases p.vmRSS with
      | none => rfl
      | some found =>
          simp only [Option.map_some, Option.getD_some, Nat.cast_lt, Int.toNat_natCast,
            Option.bind_some]

end Unx511.Lab1
