import Unx511.Text.Istream

/-!
The menus of Lab 3 (`etherCtrl.cpp`) and Lab 4 (`Lab4.cpp`), which read the selection
with `cin >> selection` until it is 0. Neither looks at the state of `cin`, and the
selection is not initialised. What a selection prints does not touch the input.
-/

namespace Unx511

open Text

namespace NumberMenu

/-- `cin >> key`, which Lab 3 makes after every selection but 0. -/
def pause (pressKey : Bool) (cin : Istream) : Istream :=
  if pressKey then cin.readChar.2 else cin

/-- The loop, for at most `fuel` selections: the ones that were made, or `none` when it
has not ended by then. -/
def selectionLoop (pressKey : Bool) : Nat → Int → Istream → Option (List Int)
  | 0, _, _ => none
  | fuel + 1, selection, cin =>
      let selection' := (cin.readInt selection).1
      let cin' := (cin.readInt selection).2
      if selection' = 0 then some []
      else (selectionLoop pressKey fuel selection' (pause pressKey cin')).map (selection' :: ·)

end NumberMenu

/-- The loop of `etherCtrl.cpp`. -/
def Lab3.menu (fuel : Nat) (selection : Int) (cin : Istream) : Option (List Int) :=
  NumberMenu.selectionLoop true fuel selection cin

/-- The loop of `Lab4.cpp`. -/
def Lab4.menu (fuel : Nat) (choice : Int) (cin : Istream) : Option (List Int) :=
  NumberMenu.selectionLoop false fuel choice cin

namespace NumberMenu

/-- The text that is left after the key. -/
def afterKey (pressKey : Bool) (rest : List Char) : List Char :=
  if pressKey then (rest.dropWhile isSpace).tail else rest

/-- Reading number after number, the input comes to a 0 or to something that is no
number before it ends and before it comes to a number that is no `int`. -/
inductive Quits (pressKey : Bool) : List Char → Prop where
  | zero {text rest : List Char} (hscan : scanInt text = .number 0 rest) : Quits pressKey text
  | noNumber {text rest : List Char} (hscan : scanInt text = .noNumber rest) :
      Quits pressKey text
  | next {text rest : List Char} {value : Int} (hscan : scanInt text = .number value rest)
      (hvalue : value ≠ 0) (hint : toInt value = value)
      (hrest : Quits pressKey (afterKey pressKey rest)) : Quits pressKey text

/-- The input makes the loop end. Where no number can be read the selection stays as it
was, and is 0 by chance. -/
def Ends (pressKey : Bool) (leftover : Int) (cin : Istream) : Prop :=
  cin.good = true ∧ Quits pressKey cin.rest ∨ leftover = 0 ∧ cin.Exhausted

variable {pressKey : Bool} {cin : Istream} {selection : Int} {fuel : Nat} {trace : List Int}

theorem not_quits_nil (pressKey : Bool) : ¬ Quits pressKey [] := by
  intro h
  cases h with
  | zero hscan | noNumber hscan | next hscan => cases hscan

/-- A stream that is not good stays so. -/
theorem pause_not_good (h : cin.good = false) : (pause pressKey cin).good = false := by
  unfold pause Istream.readChar
  cases pressKey with
  | false => exact h
  | true =>
      rw [if_pos rfl, if_neg (by simp [h])]
      simp [Istream.good]

/-- A good stream after the key is good, unless it came to its end, and then there is
nothing left. -/
theorem pause_good (pressKey : Bool) (h : cin.good = true) :
    ((pause pressKey cin).good = true ∧
        (pause pressKey cin).rest = afterKey pressKey cin.rest) ∨
      ((pause pressKey cin).good = false ∧ afterKey pressKey cin.rest = []) := by
  cases pressKey with
  | false => exact .inl ⟨h, rfl⟩
  | true =>
      unfold pause afterKey Istream.readChar
      rw [if_pos rfl, if_pos h, if_pos rfl]
      cases cin.rest.dropWhile isSpace with
      | nil => exact .inr ⟨rfl, rfl⟩
      | cons c rest => exact .inl ⟨h, rfl⟩

theorem loop_succ (fuel : Nat) (selection : Int) (cin : Istream) :
    selectionLoop pressKey (fuel + 1) selection cin =
      if (cin.readInt selection).1 = 0 then some []
      else (selectionLoop pressKey fuel (cin.readInt selection).1
        (pause pressKey (cin.readInt selection).2)).map ((cin.readInt selection).1 :: ·) := rfl

/-- Where no number can be read the last selection is made again for ever. -/
theorem loop_exhausted (hcin : cin.Exhausted) (hselection : selection ≠ 0) (fuel : Nat) :
    selectionLoop pressKey fuel selection cin = none := by
  induction fuel generalizing cin with
  | zero => rfl
  | succ fuel ih =>
      obtain ⟨hsame, hbad⟩ := Istream.readInt_exhausted hcin selection
      rw [loop_succ, hsame, if_neg hselection, ih (.inl (pause_not_good hbad))]
      rfl

/-- A number that is an `int` other than 0, where more text follows. -/
theorem loop_number {value : Int} {rest : List Char} (hgood : cin.good = true)
    (hscan : scanInt cin.rest = .number value rest) (hvalue : value ≠ 0)
    (hint : toInt value = value) (fuel : Nat) (selection : Int) :
    selectionLoop pressKey (fuel + 1) selection cin =
      (selectionLoop pressKey fuel value
        (pause pressKey { rest := rest, eof := rest.isEmpty, fail := false })).map (value :: ·) := by
  rw [loop_succ, Istream.readInt_number hgood hscan, hint, if_neg hvalue]
  simp

theorem loop_of_quits (hgood : cin.good = true) (hquits : Quits pressKey cin.rest)
    (selection : Int) : ∃ fuel trace, selectionLoop pressKey fuel selection cin = some trace := by
  obtain ⟨text, htext⟩ : ∃ text, cin.rest = text := ⟨_, rfl⟩
  rw [htext] at hquits
  induction hquits generalizing cin selection with
  | zero hscan =>
      refine ⟨1, [], ?_⟩
      rw [loop_succ, Istream.readInt_number hgood (htext ▸ hscan)]
      exact if_pos (toInt_eq_zero_iff.mpr rfl)
  | noNumber hscan =>
      refine ⟨1, [], ?_⟩
      rw [loop_succ, Istream.readInt_noNumber hgood (htext ▸ hscan), if_pos rfl]
  | @next _ rest value hscan hvalue hint hrest ih =>
      have hmore : rest ≠ [] := by
        rintro rfl
        apply not_quits_nil pressKey
        cases pressKey <;> exact hrest
      have hstream : (Istream.mk rest rest.isEmpty false).good = true := by
        simp [Istream.good, hmore]
      obtain ⟨fuel, trace, hloop⟩ : ∃ fuel trace, selectionLoop pressKey fuel value
          (pause pressKey ⟨rest, rest.isEmpty, false⟩) = some trace := by
        rcases pause_good pressKey hstream with ⟨hgood', hrest'⟩ | ⟨_, hnil⟩
        · exact ih hgood' value hrest'
        · exact absurd (hnil ▸ hrest) (not_quits_nil pressKey)
      refine ⟨fuel + 1, value :: trace, ?_⟩
      rw [loop_number hgood (htext ▸ hscan) hvalue hint, hloop]
      rfl

theorem ends_of_loop (hloop : selectionLoop pressKey fuel selection cin = some trace) :
    Ends pressKey selection cin := by
  induction fuel generalizing cin selection trace with
  | zero => cases hloop
  | succ fuel ih =>
      by_cases hexhausted : cin.Exhausted
      · -- the selection is what it was
        by_cases hselection : selection = 0
        · exact .inr ⟨hselection, hexhausted⟩
        · rw [loop_exhausted hexhausted hselection] at hloop
          cases hloop
      · obtain ⟨hgood, hscan⟩ := not_or.mp hexhausted
        have hgood : cin.good = true := by simpa using hgood
        refine .inl ⟨hgood, ?_⟩
        cases hfound : scanInt cin.rest with
        | blank => exact absurd hfound hscan
        | noNumber rest => exact .noNumber hfound
        | number value rest =>
            by_cases hvalue : value = 0
            · exact .zero (hvalue ▸ hfound)
            by_cases hint : toInt value = value
            · rw [loop_number hgood hfound hvalue hint] at hloop
              obtain ⟨_, hloop', _⟩ := Option.map_eq_some_iff.mp hloop
              obtain ⟨hgood', hquits⟩ := (ih hloop').resolve_right fun h => hvalue h.1
              have hstream : (Istream.mk rest rest.isEmpty false).good = true := by
                by_contra hbad
                rw [pause_not_good (by simpa using hbad)] at hgood'
                cases hgood'
              rcases pause_good pressKey hstream with ⟨_, hrest⟩ | ⟨hbad, _⟩
              · exact .next hfound hvalue hint (hrest ▸ hquits)
              · rw [hbad] at hgood'
                cases hgood'
            · -- the limit is stored, and the stream has failed
              have hstored : toInt value ≠ 0 := fun h => hvalue (toInt_eq_zero_iff.mp h)
              have hfailed : (Istream.mk rest rest.isEmpty (toInt value != value)).good = false := by
                simp [Istream.good, hint]
              rw [loop_succ, Istream.readInt_number hgood hfound, if_neg hstored,
                loop_exhausted (.inl (pause_not_good hfailed)) hstored] at hloop
              cases hloop

theorem loop_ends_iff (pressKey : Bool) (leftover : Int) (cin : Istream) :
    (∃ fuel trace, selectionLoop pressKey fuel leftover cin = some trace) ↔
      Ends pressKey leftover cin := by
  constructor
  · rintro ⟨fuel, trace, hloop⟩
    exact ends_of_loop hloop
  · rintro (⟨hgood, hquits⟩ | ⟨rfl, hexhausted⟩)
    · exact loop_of_quits hgood hquits leftover
    · refine ⟨1, [], ?_⟩
      rw [loop_succ, (Istream.readInt_exhausted hexhausted 0).1]
      rfl

/-- For every input, in any state that the prompts before it have left `cin` in, each
of the two menus ends exactly when the input makes it end. -/
theorem menus_end_iff (leftover : Int) (cin : Istream) :
    ((∃ fuel selections, Lab3.menu fuel leftover cin = some selections) ↔
        Ends true leftover cin) ∧
      ((∃ fuel selections, Lab4.menu fuel leftover cin = some selections) ↔
        Ends false leftover cin) :=
  ⟨loop_ends_iff true leftover cin, loop_ends_iff false leftover cin⟩

/-- One selection, and no 0 after it. -/
theorem noZero_repeats :
    (∀ leftover fuel, Lab3.menu fuel leftover (.ofText "3\n".toList) = none) ∧
      ∀ leftover fuel, Lab4.menu fuel leftover (.ofText "2\n".toList) = none := by
  have hscan3 : scanInt (Istream.ofText "3\n".toList).rest = .number 3 ['\n'] := by decide
  have hscan2 : scanInt (Istream.ofText "2\n".toList).rest = .number 2 ['\n'] := by decide
  constructor
  · intro leftover fuel
    cases fuel with
    | zero => rfl
    | succ fuel =>
        unfold Lab3.menu
        rw [loop_number rfl hscan3 (by decide) (by decide), loop_exhausted (by decide) (by decide)]
        rfl
  · intro leftover fuel
    cases fuel with
    | zero => rfl
    | succ fuel =>
        unfold Lab4.menu
        rw [loop_number rfl hscan2 (by decide) (by decide), loop_exhausted (by decide) (by decide)]
        rfl

end NumberMenu

end Unx511
