import Mathlib.Tactic

/-!
Assignment 1, `dhsb_generate_binary_file` of `file_generator.c` and
`dhsb_logger.c` (the same function in Parts 3 and 4), and its counterpart
`create_dummy_binary_file` in the test of Part 2. The two differ in the test of
what `write` returns and in the texts of their errors; the progress that the
second prints is left out.
-/

namespace Unx511.Assignment1

/-- `sizeof(buffer)` -/
def bufferSize : Nat := 1024 * 1024

/-- `buffer` after `memset`. -/
def buffer : List Char := List.replicate bufferSize 'X'

/-- What one call of `write` returns: -1, or a number that is never more than it is given. -/
inductive WriteResult where
  | error
  | written (n : Nat) (hn : n ≤ bufferSize)
  deriving DecidableEq

namespace WriteResult

/-- The bytes that the call appended to the file. -/
def bytes : WriteResult → List Char
  | error => []
  | written n _ => buffer.take n

/-- `write(...) < 0` -/
def negative : WriteResult → Bool
  | error => true
  | written _ _ => false

/-- `write(...) == sizeof(buffer)` -/
def full : WriteResult → Bool
  | error => false
  | written n _ => n == bufferSize

theorem length_bytes_written {n : Nat} (hn : n ≤ bufferSize) : (written n hn).bytes.length = n := by
  rw [bytes, buffer, List.length_take, List.length_replicate]
  exact Nat.min_eq_left hn

theorem length_bytes_le (r : WriteResult) : r.bytes.length ≤ bufferSize := by
  cases r with
  | error => exact Nat.zero_le _
  | written n hn => rwa [length_bytes_written]

theorem length_bytes_eq_iff (r : WriteResult) : r.bytes.length = bufferSize ↔ r.full = true := by
  cases r with
  | error => simp [bytes, full, bufferSize]
  | written n hn => rw [length_bytes_written, full, beq_iff_eq]

theorem eq_of_mem_bytes {r : WriteResult} {c : Char} (h : c ∈ r.bytes) : c = 'X' := by
  cases r with
  | error => simp [bytes] at h
  | written n hn => exact List.eq_of_mem_replicate (List.mem_of_mem_take h)

theorem negative_iff (r : WriteResult) : r.negative = true ↔ r = .error := by
  cases r <;> simp [negative]

end WriteResult

/-- How a call of the generator ends: it returns, leaving the file, or it prints a
message and exits. -/
inductive Outcome where
  | returned (file : List Char)
  | exited (message : String) (status : Nat)
  deriving DecidableEq

section Loop

variable (rejects : WriteResult → Bool) (message : String) (results : Nat → WriteResult)

/-- The loop from iteration `i` on, with `calls` iterations to go. `results` lists
what the successive calls of `write` return. -/
def writeLoop : (calls i : Nat) → (file : List Char) → Outcome
  | 0, _, file => .returned file
  | calls + 1, i, file =>
      if rejects (results i) then .exited message 1
      else writeLoop calls (i + 1) (file ++ (results i).bytes)

theorem writeLoop_exited {calls i j : Nat} (hi : i ≤ j) (hj : j < i + calls)
    (hreject : rejects (results j) = true) (file : List Char) :
    writeLoop rejects message results calls i file = .exited message 1 := by
  induction calls generalizing i file with
  | zero => omega
  | succ calls ih =>
      unfold writeLoop
      split
      · rfl
      · rename_i haccept
        have hne : i ≠ j := fun h => haccept (h ▸ hreject)
        exact ih (by omega) (by omega) _

theorem writeLoop_returned {calls i : Nat}
    (haccept : ∀ j, i ≤ j → j < i + calls → rejects (results j) = false) (file : List Char) :
    writeLoop rejects message results calls i file =
      .returned (file ++ (List.range' i calls).flatMap fun j => (results j).bytes) := by
  induction calls generalizing i file with
  | zero => simp [writeLoop]
  | succ calls ih =>
      have hfirst : rejects (results i) = false := haccept i (by omega) (by omega)
      have hrest : ∀ j, i + 1 ≤ j → j < i + 1 + calls → rejects (results j) = false :=
        fun j hi hj => haccept j (by omega) (by omega)
      rw [writeLoop, if_neg (by simp [hfirst]), ih hrest, List.range'_succ, List.flatMap_cons,
        List.append_assoc]

end Loop

/-- The body that the generators share. `rejects` is the test under which a call of
`write` counts as failed. -/
def generate (openFailed writeFailed : String) (rejects : WriteResult → Bool) (opened : Bool)
    (sizeMb : Int) (results : Nat → WriteResult) : Outcome :=
  if opened then writeLoop rejects writeFailed results sizeMb.toNat 0 []
  else .exited openFailed 1

/-- `dhsb_generate_binary_file` -/
def dhsbGenerateBinaryFile : Bool → Int → (Nat → WriteResult) → Outcome :=
  generate "File creation failed" "Write failed" fun r => r.negative

/-- `create_dummy_binary_file` -/
def createDummyBinaryFile : Bool → Int → (Nat → WriteResult) → Outcome :=
  generate "Failed to create dummy file" "Error writing to dummy file" fun r => !r.full

/-- A generator that returns has filled the file, and one that exits reports an
error. -/
def Outcome.Delivers (sizeMb : Int) : Outcome → Prop
  | .returned file => file.length = sizeMb * 1048576 ∧ ∀ c ∈ file, c = 'X'
  | .exited _ status => status ≠ 0

section Pieces

variable {α β : Type*} {f : α → List β} {b : Nat}

theorem length_flatMap_le (hf : ∀ a, (f a).length ≤ b) (as : List α) :
    (as.flatMap f).length ≤ as.length * b := by
  induction as with
  | nil => simp
  | cons a as ih =>
      rw [List.flatMap_cons, List.length_append, List.length_cons, Nat.succ_mul]
      have := hf a
      omega

/-- Pieces that are all at most `b` long add up to `b` each only when all of them
are. -/
theorem length_flatMap_eq_iff (hf : ∀ a, (f a).length ≤ b) (as : List α) :
    (as.flatMap f).length = as.length * b ↔ ∀ a ∈ as, (f a).length = b := by
  induction as with
  | nil => simp
  | cons a as ih =>
      rw [List.flatMap_cons, List.length_append, List.length_cons, Nat.succ_mul,
        List.forall_mem_cons]
      have hfirst := hf a
      have hrest := length_flatMap_le hf as
      constructor
      · intro h
        exact ⟨by omega, ih.mp (by omega)⟩
      · rintro ⟨ha, has⟩
        have := ih.mpr has
        omega

end Pieces

/-- What the bytes of `calls` accepted writes amount to. -/
theorem delivers_returned_iff {sizeMb : Int} (hsize : 0 ≤ sizeMb) (results : Nat → WriteResult) :
    (Outcome.returned ((List.range' 0 sizeMb.toNat).flatMap fun j => (results j).bytes)).Delivers
        sizeMb ↔
      ∀ i : Nat, i < sizeMb → (results i).full = true := by
  have hlength := length_flatMap_eq_iff (fun j => (results j).length_bytes_le)
    (List.range' 0 sizeMb.toNat)
  have hX : ∀ c ∈ (List.range' 0 sizeMb.toNat).flatMap fun j => (results j).bytes, c = 'X' := by
    intro c hc
    obtain ⟨j, _, hj⟩ := List.mem_flatMap.mp hc
    exact WriteResult.eq_of_mem_bytes hj
  rw [List.length_range', bufferSize] at hlength
  constructor
  · rintro ⟨hfile, _⟩ i hi
    rw [← WriteResult.length_bytes_eq_iff]
    exact hlength.mp (by omega) i (by simp only [List.mem_range'_1]; omega)
  · intro hfull
    refine ⟨?_, hX⟩
    have h := hlength.mpr fun j hj =>
      (results j).length_bytes_eq_iff.mpr (hfull j (by simp only [List.mem_range'_1] at hj; omega))
    omega

/-- The test against the size of the buffer makes the sibling right whatever `write`
returns. -/
theorem createDummyBinaryFile_delivers (opened : Bool) {sizeMb : Int} (hsize : 0 ≤ sizeMb)
    (results : Nat → WriteResult) :
    (createDummyBinaryFile opened sizeMb results).Delivers sizeMb := by
  cases opened with
  | false => exact Nat.one_ne_zero
  | true =>
      change (writeLoop _ _ results sizeMb.toNat 0 []).Delivers sizeMb
      by_cases hfull : ∀ i : Nat, i < sizeMb → (results i).full = true
      · rw [writeLoop_returned _ _ _ fun j _ hj => by simp [hfull j (by omega)]]
        exact (delivers_returned_iff hsize results).mpr hfull
      · simp only [not_forall] at hfull
        obtain ⟨j, hj, hshort⟩ := hfull
        rw [writeLoop_exited _ _ _ (Nat.zero_le j) (by omega) (by simp [hshort])]
        exact Nat.one_ne_zero

/-- A generator that only looks for errors fills the file exactly when some write
fails outright or none of them is short. -/
theorem dhsbGenerateBinaryFile_delivers_iff (opened : Bool) (sizeMb : Int) (hsize : 0 ≤ sizeMb)
    (results : Nat → WriteResult) :
    (dhsbGenerateBinaryFile opened sizeMb results).Delivers sizeMb ↔
      opened = false ∨ (∃ i : Nat, i < sizeMb ∧ results i = .error) ∨
        ∀ i : Nat, i < sizeMb → (results i).full = true := by
  cases opened with
  | false => exact iff_of_true Nat.one_ne_zero (.inl rfl)
  | true =>
      change (writeLoop _ _ results sizeMb.toNat 0 []).Delivers sizeMb ↔ _
      by_cases herror : ∃ i : Nat, i < sizeMb ∧ results i = .error
      · obtain ⟨j, hj, hres⟩ := herror
        rw [writeLoop_exited _ _ _ (Nat.zero_le j) (by omega)
          (by simp [hres, WriteResult.negative])]
        exact iff_of_true Nat.one_ne_zero (.inr (.inl ⟨j, hj, hres⟩))
      · have haccept : ∀ j, 0 ≤ j → j < 0 + sizeMb.toNat → (results j).negative = false := by
          intro j _ hj
          rw [Bool.eq_false_iff, ne_eq, WriteResult.negative_iff]
          exact fun hres => herror ⟨j, by omega, hres⟩
        rw [writeLoop_returned _ _ _ haccept, List.nil_append, delivers_returned_iff hsize]
        simp [herror]

/-- A file of 60 MB, every write of which is full. -/
theorem dhsbGenerateBinaryFile_delivers_full :
    (0 : Int) ≤ 60 ∧
      ((dhsbGenerateBinaryFile true 60 fun _ => .written bufferSize le_rfl).Delivers 60 ↔
        true = false ∨ (∃ i : Nat, (i : Int) < 60 ∧
            (fun _ => WriteResult.written bufferSize le_rfl) i = .error) ∨
          ∀ i : Nat, (i : Int) < 60 → WriteResult.full (.written bufferSize le_rfl) = true) :=
  ⟨by decide, dhsbGenerateBinaryFile_delivers_iff true 60 (by decide) _⟩

/-- A disk that fills up after one page leaves a short file, and the generator
returns as if nothing had happened. -/
theorem dhsbGenerateBinaryFile_short :
    ¬ (dhsbGenerateBinaryFile true 1 fun _ => .written 4096 (by decide)).Delivers 1 := by
  rintro ⟨hlength, _⟩
  change ((WriteResult.written 4096 (by decide)).bytes.length : Int) = 1 * 1048576 at hlength
  rw [WriteResult.length_bytes_written] at hlength
  omega

end Unx511.Assignment1
