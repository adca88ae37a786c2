import Unx511.Text.Decimal

/-!
Lab 5b, the statistics loop of `intfMonitor.cpp`: four counters are read from sysfs with
one `ifstream` into an `int` each, and written to `Network.log` as one line.
-/

namespace Unx511.Lab5b

open Text

def MAXBUF : Nat := 128

/-- One value for each of the four files, in the order they are read in. -/
structure Statistics (α : Type*) where
  txBytes : α
  rxBytes : α
  txPackets : α
  rxPackets : α
  deriving DecidableEq, Repr

/-- `statPath` -/
def statPath (interface name : List Char) : List Char :=
  "/sys/class/net/".toList ++ interface ++ "/statistics/".toList ++ name

/-- `infile.open(path)`, `infile>>value` and `infile.close()`, when the value was 0 before.
A successful `open` clears the state of the stream. -/
def readStat (sysfs : List Char → Option (List Char)) (path : List Char) (infile : Istream) :
    Int × Istream :=
  match sysfs path with
  | some content => (Istream.ofText content).readInt 0
  | none => (0, { infile with fail := true })

/-- The four reads of one iteration. -/
def gather (sysfs : List Char → Option (List Char)) (interface : List Char) : Statistics Int :=
  let path := fun name : String => statPath interface name.toList
  let tx := readStat sysfs (path "tx_bytes") (.ofText [])
  let rx := readStat sysfs (path "rx_bytes") tx.2
  let txp := readStat sysfs (path "tx_packets") rx.2
  let rxp := readStat sysfs (path "rx_packets") txp.2
  { txBytes := tx.1, rxBytes := rx.1, txPackets := txp.1, rxPackets := rxp.1 }

def txBytesLabel : List Char := ": tx_bytes:".toList
def rxBytesLabel : List Char := " rx_bytes:".toList
def txPacketsLabel : List Char := " tx_packets:".toList
def rxPacketsLabel : List Char := " rx_packets: ".toList

/-- The text that `sprintf` writes into `data`. -/
def dataLine (interface : List Char) (stats : Statistics Int) : List Char :=
  interface ++ txBytesLabel ++ formatInt stats.txBytes ++ rxBytesLabel ++
    formatInt stats.rxBytes ++ txPacketsLabel ++ formatInt stats.txPackets ++
    rxPacketsLabel ++ formatInt stats.rxPackets ++ ['\n']

/-- What one iteration appends to `Network.log`. -/
def logLine (sysfs : List Char → Option (List Char)) (interface : List Char) : List Char :=
  dataLine interface (gather sysfs interface)

/-- The four files hold these counters, each with a newline. -/
structure Holds (sysfs : List Char → Option (List Char)) (interface : List Char)
    (counters : Statistics Nat) : Prop where
  txBytes : sysfs (statPath interface "tx_bytes".toList) =
    some (decimal counters.txBytes ++ ['\n'])
  rxBytes : sysfs (statPath interface "rx_bytes".toList) =
    some (decimal counters.rxBytes ++ ['\n'])
  txPackets : sysfs (statPath interface "tx_packets".toList) =
    some (decimal counters.txPackets ++ ['\n'])
  rxPackets : sysfs (statPath interface "rx_packets".toList) =
    some (decimal counters.rxPackets ++ ['\n'])

/-- The line keeps within `data`, its NUL included. -/
def Fits (line : List Char) : Prop := line.length + 1 ≤ MAXBUF

/-- The number that a text, given from its end, ends with, and what is in front of it and
of its label. -/
def takeField (label reversed : List Char) : Option (Nat × List Char) :=
  let rest := reversed.dropWhile Char.isDigit
  if label.reverse.isPrefixOf rest then
    some (digitsValue (reversed.takeWhile Char.isDigit).reverse, rest.drop label.length)
  else none

/-- A line read back by its format, from its end on. -/
def readBack (line : List Char) : Option (List Char × Statistics Nat) :=
  match line.reverse with
  | '\n' :: rest =>
      (takeField rxPacketsLabel rest).bind fun (rxPackets, rest) =>
        (takeField txPacketsLabel rest).bind fun (txPackets, rest) =>
          (takeField rxBytesLabel rest).bind fun (rxBytes, rest) =>
            (takeField txBytesLabel rest).map fun (txBytes, rest) =>
              (rest.reverse,
                { txBytes := txBytes
                  rxBytes := rxBytes
                  txPackets := txPackets
                  rxPackets := rxPackets })
  | _ => none

/-- Every counter is in the range of `int`. -/
def Statistics.InRange (counters : Statistics Nat) : Prop :=
  counters.txBytes ≤ 2147483647 ∧ counters.rxBytes ≤ 2147483647 ∧
    counters.txPackets ≤ 2147483647 ∧ counters.rxPackets ≤ 2147483647

namespace Statistics

def map {α β : Type*} (f : α → β) (s : Statistics α) : Statistics β where
  txBytes := f s.txBytes
  rxBytes := f s.rxBytes
  txPackets := f s.txPackets
  rxPackets := f s.rxPackets

/-- The counters as an `int` keeps them. -/
def saturated (counters : Statistics Nat) : Statistics Nat := counters.map (min · 2147483647)

theorem saturated_eq_self_iff {counters : Statistics Nat} :
    counters.saturated = counters ↔ counters.InRange := by
  obtain ⟨tx, rx, txp, rxp⟩ := counters
  simp only [saturated, map, InRange, mk.injEq]
  omega

end Statistics

theorem toInt_natCast (n : Nat) : toInt n = (min n 2147483647 : Nat) := by
  unfold toInt
  omega

theorem readStat_decimal {sysfs : List Char → Option (List Char)} {path : List Char} {n : Nat}
    (h : sysfs path = some (decimal n ++ ['\n'])) (infile : Istream) :
    (readStat sysfs path infile).1 = (min n 2147483647 : Nat) := by
  have hscan : scanInt (Istream.ofText (decimal n ++ ['\n'])).rest = .number n ['\n'] :=
    scanInt_decimal n (digitsEnd_cons (by decide) [])
  unfold readStat
  rw [h, ← toInt_natCast]
  change ((Istream.ofText (decimal n ++ ['\n'])).readInt 0).1 = _
  rw [Istream.readInt_number rfl hscan]

/-- Each counter is stored for itself: a number that is too large in one file leaves the
others alone. -/
theorem gather_saturated {sysfs : List Char → Option (List Char)} {interface : List Char}
    {counters : Statistics Nat} (h : Holds sysfs interface counters) :
    gather sysfs interface = counters.saturated.map Nat.cast := by
  unfold gather
  simp only [readStat_decimal h.txBytes, readStat_decimal h.rxBytes, readStat_decimal h.txPackets,
    readStat_decimal h.rxPackets]
  rfl

theorem takeField_append {label : List Char} {c : Char} (hlast : label.getLast? = some c)
    (hc : c.isDigit = false) (front : List Char) (n : Nat) :
    takeField label (front ++ label ++ decimal n).reverse = some (n, front.reverse) := by
  have hreverse : (front ++ label ++ decimal n).reverse =
      (decimal n).reverse ++ (label.reverse ++ front.reverse) := by simp
  have hdigits : ∀ d ∈ (decimal n).reverse, d.isDigit = true :=
    fun d hd => isDigit_of_mem_decimal (List.mem_reverse.mp hd)
  have hstop : DigitsEnd (label.reverse ++ front.reverse) := by
    intro d hd
    rw [List.head?_append, List.head?_reverse, hlast] at hd
    cases hd
    exact hc
  have hlabel : label.reverse.isPrefixOf (label.reverse ++ front.reverse) = true :=
    List.isPrefixOf_iff_prefix.mpr (List.prefix_append _ _)
  have hdrop : (label.reverse ++ front.reverse).drop label.length = front.reverse := by
    rw [← List.length_reverse, List.drop_left]
  unfold takeField
  rw [hreverse, takeWhile_append_stop hdigits hstop, dropWhile_append_stop hdigits hstop]
  simp only [hlabel, if_pos, hdrop, List.reverse_reverse, digitsValue_decimal]

theorem readBack_dataLine (interface : List Char) (s : Statistics Nat) :
    readBack (dataLine interface (s.map Nat.cast)) = some (interface, s) := by
  have hreverse : (dataLine interface (s.map Nat.cast)).reverse = '\n' ::
      (interface ++ txBytesLabel ++ decimal s.txBytes ++ rxBytesLabel ++ decimal s.rxBytes ++
        txPacketsLabel ++ decimal s.txPackets ++ rxPacketsLabel ++ decimal s.rxPackets).reverse :=
    List.reverse_concat
  unfold readBack
  rw [hreverse]
  simp only
  rw [takeField_append (c := ' ') (by decide) (by decide), Option.bind_some]
  simp only
  rw [takeField_append (c := ':') (by decide) (by decide), Option.bind_some]
  simp only
  rw [takeField_append (c := ':') (by decide) (by decide), Option.bind_some]
  simp only
  rw [takeField_append (c := ':') (by decide) (by decide), Option.map_some, List.reverse_reverse]

theorem length_decimal_saturated (n : Nat) : (decimal (min n 2147483647)).length ≤ 10 := by
  rw [length_decimal_le_iff (by decide)]
  omega

/-- A line with a name of up to 15 characters needs at most 103 bytes. -/
theorem fits_dataLine {interface : List Char} (hname : interface.length ≤ 15)
    (counters : Statistics Nat) :
    Fits (dataLine interface (counters.saturated.map Nat.cast)) := by
  have hlabels : txBytesLabel.length = 11 ∧ rxBytesLabel.length = 10 ∧
      txPacketsLabel.length = 12 ∧ rxPacketsLabel.length = 13 := by decide
  have htx := length_decimal_saturated counters.txBytes
  have hrx := length_decimal_saturated counters.rxBytes
  have htxp := length_decimal_saturated counters.txPackets
  have hrxp := length_decimal_saturated counters.rxPackets
  unfold Fits MAXBUF dataLine
  simp only [Statistics.saturated, Statistics.map, formatInt_natCast, List.length_append,
    List.length_singleton]
  omega

/-- For every name and all counters the line fits, and it is read back as they are
exactly when each of them is an `int`. -/
theorem logLine_readsBack_iff {sysfs : List Char → Option (List Char)} {interface : List Char}
    (hname : interface.length ≤ 15) {counters : Statistics Nat}
    (hfiles : Holds sysfs interface counters) :
    (Fits (logLine sysfs interface) ∧
        readBack (logLine sysfs interface) = some (interface, counters)) ↔
      counters.InRange := by
  unfold logLine
  rw [gather_saturated hfiles, readBack_dataLine, ← Statistics.saturated_eq_self_iff]
  constructor
  · rintro ⟨_, hback⟩
    exact (Prod.mk.inj (Option.some.inj hback)).2
  · intro h
    rw [h]
    exact ⟨h ▸ fits_dataLine hname counters, rfl⟩

/-- Files of the interface `lo` with the given counters. -/
def loFiles (counters : Statistics Nat) (path : List Char) : Option (List Char) :=
  let counter := fun name : String => statPath "lo".toList name.toList
  if path = counter "tx_bytes" then some (decimal counters.txBytes ++ ['\n'])
  else if path = counter "rx_bytes" then some (decimal counters.rxBytes ++ ['\n'])
  else if path = counter "tx_packets" then some (decimal counters.txPackets ++ ['\n'])
  else if path = counter "rx_packets" then some (decimal counters.rxPackets ++ ['\n'])
  else none

theorem logLine_readsBack_lo :
    (Fits (logLine (loFiles ⟨81044, 81044, 912, 912⟩) "lo".toList) ∧
        readBack (logLine (loFiles ⟨81044, 81044, 912, 912⟩) "lo".toList) =
          some ("lo".toList, ⟨81044, 81044, 912, 912⟩)) ↔
      Statistics.InRange ⟨81044, 81044, 912, 912⟩ :=
  logLine_readsBack_iff (by decide)
    ⟨by decide, by decide, by decide, by decide⟩

/-- A counter of 3 GB is logged as 2147483647. -/
theorem logLine_large :
    Holds (loFiles ⟨3000000000, 81044, 912, 912⟩) "lo".toList ⟨3000000000, 81044, 912, 912⟩ ∧
      readBack (logLine (loFiles ⟨3000000000, 81044, 912, 912⟩) "lo".toList) =
        some ("lo".toList, ⟨2147483647, 81044, 912, 912⟩) ∧
      readBack (logLine (loFiles ⟨3000000000, 81044, 912, 912⟩) "lo".toList) ≠
        some ("lo".toList, ⟨3000000000, 81044, 912, 912⟩) :=
  ⟨⟨by decide, by decide, by decide, by decide⟩, by decide, by decide⟩

end Unx511.Lab5b
