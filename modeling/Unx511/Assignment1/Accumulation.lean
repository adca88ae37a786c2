import Unx511.Assignment1.Worker

/-!
What `accumulated_data` holds. The loop packs the chunks into the buffer: its
contents up to `offset` are those of the abstract store, and the facts about the
store carry over to every iteration.
-/

namespace Unx511.Assignment1

open Machine

variable {β : Type*}

theorem take_memcpy {memory : List β} {offset : Nat} {chunk : List β}
    (h : offset ≤ memory.length) :
    (memcpy memory offset chunk).take (offset + chunk.length) = memory.take offset ++ chunk := by
  have hlength : (memory.take offset ++ chunk).length = offset + chunk.length := by
    rw [List.length_append, List.length_take, Nat.min_eq_left h]
  rw [memcpy, ← hlength]
  exact List.take_left

theorem length_memcpy {memory : List β} {offset : Nat} {chunk : List β}
    (h : offset + chunk.length ≤ memory.length) :
    (memcpy memory offset chunk).length = memory.length := by
  simp only [memcpy, List.length_append, List.length_take, List.length_drop]
  omega

namespace Worker

/-- The buffer keeps its size and holds the packed chunks in front of `offset`. -/
structure Packed (w : Worker β) : Prop where
  size : w.accumulatedData.length = fileDataCapacity
  offset : w.offset = (pack fileDataCapacity w.chunksRead).length
  stored : w.stored = pack fileDataCapacity w.chunksRead

theorem start_packed (alarm : Alarm) (memory : Vector β fileDataCapacity) :
    (start alarm memory).Packed where
  size := Vector.length_toList
  offset := rfl
  stored := rfl

theorem Packed.accumulate {w : Worker β} (h : w.Packed) (chunk : List β) :
    (w.accumulate chunk).Packed := by
  have hroom : w.offset + chunk.length ≤ fileDataCapacity ↔
      Fits fileDataCapacity w.chunksRead chunk := by
    rw [h.offset]
    exact Iff.rfl
  by_cases hfits : Fits fileDataCapacity w.chunksRead chunk
  · have hle := hroom.mpr hfits
    have hsize := h.size
    rw [Worker.accumulate, if_pos hle]
    constructor
    · exact (length_memcpy (by omega)).trans hsize
    · change w.offset + chunk.length = (pack _ (w.chunksRead ++ [chunk])).length
      rw [pack_concat_of_fits hfits, List.length_append, h.offset]
    · change (memcpy w.accumulatedData w.offset chunk).take (w.offset + chunk.length) =
        pack _ (w.chunksRead ++ [chunk])
      rw [pack_concat_of_fits hfits, take_memcpy (by omega), ← h.stored]
      rfl
  · rw [Worker.accumulate, if_neg (mt hroom.mp hfits)]
    constructor
    · exact h.size
    · change w.offset = (pack _ (w.chunksRead ++ [chunk])).length
      rw [pack_concat_of_not_fits hfits, h.offset]
    · change w.stored = pack _ (w.chunksRead ++ [chunk])
      rw [pack_concat_of_not_fits hfits, h.stored]

theorem Packed.setAlarm {w : Worker β} (h : w.Packed) (alarm : Alarm) :
    { w with alarm := alarm }.Packed where
  size := h.size
  offset := h.offset
  stored := h.stored

theorem readLoop_packed (readings : Nat → Reading) (chunks : List (List β)) (i : Nat)
    {w : Worker β} (h : w.Packed) : (readLoop readings chunks i w).1.Packed := by
  induction chunks generalizing i w with
  | nil => exact h
  | cons chunk rest ih =>
      unfold readLoop
      split
      · exact h.accumulate chunk
      · exact ih (i + 1) ((h.accumulate chunk).setAlarm _)

/-- What the buffer holds, in terms of what has been read. -/
structure Accumulated (w : Worker β) : Prop where
  bounded : w.offset ≤ fileDataCapacity
  /-- A chunk is stored when it fits behind the chunks stored before it. -/
  packed : w.stored = pack fileDataCapacity w.chunksRead
  /-- The stored bytes are whole chunks, in the order they were read. -/
  inOrder : ∃ kept : List (List β), kept.Sublist w.chunksRead ∧ w.stored = kept.flatten
  complete : w.chunksRead.flatten.length ≤ fileDataCapacity → w.stored = w.chunksRead.flatten
  /-- They are the front of the file as long as no chunk is stored after a dropped
  one. -/
  front : StopsAtDrop fileDataCapacity w.chunksRead → w.stored <+: w.chunksRead.flatten

theorem Packed.accumulated {w : Worker β} (h : w.Packed) : w.Accumulated where
  bounded := by
    rw [h.offset]
    exact length_pack_le _
  packed := h.stored
  inOrder := by
    rw [h.stored]
    exact pack_eq_flatten_sublist _ _
  complete := by
    rw [h.stored]
    exact pack_of_length_le
  front := by
    rw [h.stored]
    exact pack_prefix

/-- The buffer at any iteration, for any file and any sizes of the reads. -/
theorem readLoop_accumulated (alarm : Alarm) (memory : Vector β fileDataCapacity)
    (readings : Nat → Reading) (chunks : List (List β)) :
    (readLoop readings chunks 0 (start alarm memory)).1.Accumulated :=
  (readLoop_packed readings chunks 0 (start_packed alarm memory)).accumulated

theorem readLoop_chunksRead (readings : Nat → Reading) (hopen : ∀ i, readings i ≠ .unreadable)
    (chunks : List (List β)) (i : Nat) (w : Worker β) :
    (readLoop readings chunks i w).1.chunksRead = w.chunksRead ++ chunks := by
  induction chunks generalizing i w with
  | nil => simp [readLoop]
  | cons chunk rest ih =>
      have hnext : (w.accumulate chunk).chunksRead = w.chunksRead ++ [chunk] := by
        unfold accumulate
        split <;> rfl
      rw [readLoop, if_neg (hopen i), ih]
      simp [hnext]

end Worker

/-- Reads around the end of the buffer: one of a single byte leaves room for all but
one byte of the next, which is dropped, and the last read fits again. -/
def overrun : List (List Char) :=
  List.replicate 15359 (List.replicate 4096 'a') ++ [['b'], List.replicate 4096 'c', ['d']]

/-- The chunks of `overrun` that fit one behind the other. -/
def overrunFront : List (List Char) :=
  List.replicate 15359 (List.replicate 4096 'a') ++ [['b']]

theorem length_overrunFront : overrunFront.flatten.length = fileDataCapacity - 4095 := by
  simp only [overrunFront, fileDataCapacity, List.length_flatten, List.map_append,
    List.map_replicate, List.length_replicate, List.sum_append, List.sum_replicate, smul_eq_mul,
    List.map_cons, List.map_nil, List.length_singleton, List.sum_singleton]

theorem pack_overrun :
    pack fileDataCapacity overrun = overrunFront.flatten ++ ['d'] := by
  have hfront : pack fileDataCapacity overrunFront = overrunFront.flatten :=
    pack_of_length_le (by rw [length_overrunFront]; omega)
  have hdrop : ¬ Fits fileDataCapacity overrunFront (List.replicate 4096 'c') := by
    rw [Fits, hfront, length_overrunFront, List.length_replicate, fileDataCapacity]
    omega
  have hfits : Fits fileDataCapacity (overrunFront ++ [List.replicate 4096 'c']) ['d'] := by
    rw [Fits, pack_concat_of_not_fits hdrop, hfront, length_overrunFront, fileDataCapacity]
    simp
  have hoverrun : overrun = overrunFront ++ [List.replicate 4096 'c'] ++ [['d']] := by
    simp only [overrun, overrunFront, List.append_assoc, List.cons_append, List.nil_append]
  rw [hoverrun, pack_concat_of_fits hfits, pack_concat_of_not_fits hdrop, hfront]

/-- A byte that follows a dropped chunk is stored. -/
theorem overrun_not_prefix :
    (∀ chunk ∈ overrun, 1 ≤ chunk.length ∧ chunk.length ≤ 4096) ∧
      ¬ (Worker.readLoop (fun _ => .vmRss 112640) overrun 0
            (.start .initial (Vector.replicate _ 'z'))).1.stored <+:
          (Worker.readLoop (fun _ => .vmRss 112640) overrun 0
            (.start .initial (Vector.replicate _ 'z'))).1.chunksRead.flatten := by
  constructor
  · intro chunk hchunk
    simp only [overrun, List.mem_append, List.mem_replicate, List.mem_cons, List.not_mem_nil,
      or_false] at hchunk
    rcases hchunk with ⟨_, rfl⟩ | rfl | rfl | rfl
    · rw [List.length_replicate]
      omega
    · decide
    · rw [List.length_replicate]
      omega
    · decide
  · have hpacked := Worker.readLoop_packed (fun _ => .vmRss 112640) overrun 0
      (Worker.start_packed .initial (Vector.replicate _ 'z'))
    have hread := Worker.readLoop_chunksRead (fun _ => .vmRss 112640)
      (fun _ => by simp) overrun 0 (.start .initial (Vector.replicate _ 'z'))
    have hflatten : overrun.flatten =
        overrunFront.flatten ++ (List.replicate 4096 'c' ++ ['d']) := by
      simp only [overrun, overrunFront, List.flatten_append, List.flatten_cons, List.flatten_nil,
        List.append_assoc, List.append_nil]
    rw [hpacked.stored, hread]
    change ¬ pack fileDataCapacity overrun <+: overrun.flatten
    rw [pack_overrun, hflatten, List.prefix_append_right_inj]
    rintro ⟨rest, hrest⟩
    have hhead := congrArg List.head? hrest
    change some 'd' = some 'c' at hhead
    exact absurd hhead (by decide)

end Unx511.Assignment1
