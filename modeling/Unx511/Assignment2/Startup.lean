import Unx511.Assignment2.Refusal
import Unx511.Text.Decimal

/-!
What networkMonitor asks for before it listens: the number of interfaces and their names.
Nothing looks at the state of `cin`, so an input that ends early leaves names that are empty,
and two of those are the same name.
-/

namespace Unx511.Assignment2.Startup

open Unx511.Machine Unx511.Text

/-- `cin.ignore(numeric_limits<streamsize>::max(), '\n')` -/
def ignoreLine (cin : Istream) : Istream :=
  if cin.good then
    match cin.rest.dropWhile (· ≠ '\n') with
    | _ :: rest => { cin with rest := rest }
    | [] => { cin with rest := [], eof := true }
  else { cin with fail := true }

/-- The loop over the prompts, with a new `name` each time. -/
def readNames : Nat → Istream → List (List Char)
  | 0, _ => []
  | n + 1, cin => (cin.getline []).1 :: readNames n (cin.getline []).2

/-- `interface_names`, where `num_interfaces` holds `leftover` before it is read. -/
def interfaceNames (leftover : Int) (cin : Istream) : List (List Char) :=
  readNames (cin.readInt leftover).1.toNat (ignoreLine (cin.readInt leftover).2)

/-- The names that networkMonitor starts with; it returns at once when there are none. -/
def startup (leftover : Int) (input : List Char) : Option (List String) :=
  match interfaceNames leftover (.ofText input) with
  | [] => none
  | names => some (names.map String.ofList)

/-- The number of names, and the lines that are there for them. -/
def entered (leftover : Int) (input : List Char) : Nat × List (List Char) :=
  match scanInt input with
  | .blank => (leftover.toNat, [])
  | .noNumber _ => (0, [])
  | .number value rest =>
      ((toInt value).toNat,
        if toInt value = value then getlines (rest.dropWhile (· ≠ '\n')).tail else [])

/-- The names read, with an empty one for each line that is missing. -/
def padded (n : Nat) (lines : List (List Char)) : List (List Char) :=
  lines.take n ++ List.replicate (n - lines.length) []

theorem padded_nil (n : Nat) : padded n [] = List.replicate n [] := by
  simp [padded]

theorem readNames_not_good {cin : Istream} (h : cin.good = false) (n : Nat) :
    readNames n cin = padded n [] := by
  rw [padded_nil]
  induction n generalizing cin with
  | zero => rfl
  | succ n ih =>
      obtain ⟨hempty, hbad⟩ := Istream.getline_not_good h []
      rw [readNames, hempty, ih hbad, List.replicate_succ]

theorem readNames_ofText (n : Nat) (text : List Char) :
    readNames n (.ofText text) = padded n (getlines text) := by
  induction n generalizing text with
  | zero => simp [readNames, padded]
  | succ n ih =>
      rcases Istream.exists_line text with ⟨line, after, hline, rfl⟩ | hlast
      · rw [readNames, Istream.getline_line hline, ih, getlines_line hline]
        simp [padded]
      · obtain ⟨hname, hbad⟩ := Istream.getline_last hlast []
        rw [readNames, hname, readNames_not_good hbad, padded_nil, getlines_last hlast]
        split
        · next hnil => simp [padded, hnil, List.replicate_succ]
        · simp [padded]

theorem ignoreLine_not_good {cin : Istream} (h : cin.good = false) :
    (ignoreLine cin).good = false := by
  unfold ignoreLine
  rw [if_neg (by simp [h])]
  simp [Istream.good]

/-- The lines behind the one that the number is on. -/
theorem readNames_ignoreLine (n : Nat) (rest : List Char) :
    readNames n (ignoreLine ⟨rest, rest.isEmpty, false⟩) =
      padded n (getlines (rest.dropWhile (· ≠ '\n')).tail) := by
  cases rest with
  | nil => exact readNames_not_good rfl n
  | cons c rest =>
      have hgood : (Istream.mk (c :: rest) (c :: rest).isEmpty false).good = true := rfl
      unfold ignoreLine
      rw [if_pos hgood]
      split
      · next after hdrop =>
          rw [hdrop]
          exact readNames_ofText n after
      · next hdrop =>
          rw [hdrop]
          exact readNames_not_good rfl n

theorem interfaceNames_eq (leftover : Int) (input : List Char) :
    interfaceNames leftover (.ofText input) =
      padded (entered leftover input).1 (entered leftover input).2 := by
  unfold interfaceNames entered
  cases hscan : scanInt input with
  | blank =>
      obtain ⟨hsame, hbad⟩ := Istream.readInt_exhausted (i := .ofText input) (.inr hscan) leftover
      rw [hsame, readNames_not_good (ignoreLine_not_good hbad)]
  | noNumber rest =>
      rw [Istream.readInt_noNumber rfl hscan]
      simp [readNames, padded]
  | number value rest =>
      rw [Istream.readInt_number rfl hscan]
      simp only
      split
      · next hint =>
          rw [hint, bne_self_eq_false]
          exact readNames_ignoreLine _ rest
      · next hint =>
          have hfail : (toInt value != value) = true := by simpa using hint
          rw [hfail]
          exact readNames_not_good (ignoreLine_not_good (by simp [Istream.good])) _

/-- The names are different: those that are there, and at most one is missing. -/
def Different (n : Nat) (lines : List (List Char)) : Prop :=
  (lines.take n).Nodup ∧ n ≤ lines.length + 1 ∧ (n = lines.length + 1 → [] ∉ lines)

theorem nodup_padded_iff (n : Nat) (lines : List (List Char)) :
    (padded n lines).Nodup ↔ Different n lines := by
  have hmissing : (List.replicate (n - lines.length) ([] : List Char)).Nodup ↔
      n ≤ lines.length + 1 := by
    rw [List.nodup_replicate]
    omega
  have hapart : (∀ name ∈ lines.take n, ∀ empty ∈ List.replicate (n - lines.length) [],
      name ≠ empty) ↔ (lines.length < n → [] ∉ lines) := by
    constructor
    · intro h hshort hmem
      have htake : [] ∈ lines.take n := by
        rw [List.take_of_length_le hshort.le]
        exact hmem
      exact h [] htake [] (List.mem_replicate.mpr ⟨by omega, rfl⟩) rfl
    · rintro h name hname empty hempty rfl
      obtain ⟨hpos, rfl⟩ := List.mem_replicate.mp hempty
      exact h (by omega) (List.mem_of_mem_take hname)
  unfold padded Different
  rw [List.nodup_append, hmissing, hapart]
  constructor
  · rintro ⟨hlines, hle, hnone⟩
    exact ⟨hlines, hle, fun heq => hnone (by omega)⟩
  · rintro ⟨hlines, hle, hnone⟩
    exact ⟨hlines, hle, fun hlt => hnone (by omega)⟩

theorem getlines_typed {names : List (List Char)} (hlines : ∀ name ∈ names, '\n' ∉ name)
    (more : List Char) :
    getlines (names.flatMap (· ++ ['\n']) ++ more) = names ++ getlines more := by
  induction names with
  | nil => rfl
  | cons name names ih =>
      obtain ⟨hname, hnames⟩ := List.forall_mem_cons.mp hlines
      rw [List.flatMap_cons, List.append_assoc, List.append_assoc, List.singleton_append,
        getlines_line hname, ih hnames, List.cons_append]

/-- Names that are typed, a line each behind the line with their number, are the names that
networkMonitor starts with. -/
theorem startup_typed {names : List (List Char)} (hsome : names ≠ [])
    (hlines : ∀ name ∈ names, '\n' ∉ name) (hint : names.length ≤ 2147483647) (leftover : Int)
    (more : List Char) :
    startup leftover (decimal names.length ++ '\n' :: (names.flatMap (· ++ ['\n']) ++ more)) =
      some (names.map String.ofList) := by
  have hvalue : toInt names.length = names.length := by
    unfold toInt
    omega
  have hnames : interfaceNames leftover (.ofText
      (decimal names.length ++ '\n' :: (names.flatMap (· ++ ['\n']) ++ more))) = names := by
    rw [interfaceNames_eq, entered, scanInt_decimal names.length (digitsEnd_cons rfl _)]
    simp only [hvalue, if_true]
    change padded names.length (getlines (names.flatMap (· ++ ['\n']) ++ more)) = names
    rw [getlines_typed hlines]
    simp [padded]
  unfold startup
  rw [hnames]
  cases names with
  | nil => exact absurd rfl hsome
  | cons name names => rfl

/-- Whatever is entered, no monitor that networkMonitor forks is refused in any run exactly
when the lines with the names are different and at most one is missing, where none is empty. -/
theorem startup_unrefused_iff (restarts : Bool) (leftover : Int) (input : List Char) :
    (∀ names, startup leftover input = some names →
      ∀ running s, Reaches (step ⟨names, restarts⟩) OnlyForked (State.initial running) s →
        s.Unrefused) ↔
      Different (entered leftover input).1 (entered leftover input).2 := by
  rw [← nodup_padded_iff, ← interfaceNames_eq]
  unfold startup
  split
  · next hnone =>
      rw [hnone]
      exact iff_of_true nofun List.nodup_nil
  · have hmap : ((interfaceNames leftover (.ofText input)).map String.ofList).Nodup ↔
        (interfaceNames leftover (.ofText input)).Nodup :=
      List.nodup_map_iff fun _ _ h => String.ofList_injective h
    rw [← hmap]
    constructor
    · intro hall
      have hnames : (Config.mk _ restarts).names.Nodup := nodup_of_unrefused (hall _ rfl true)
      exact hnames
    · rintro hnodup _ ⟨⟩ running s hreach
      exact unrefused_of_nodup hnodup hreach

end Unx511.Assignment2.Startup
