import Mathlib.Data.List.Flatten
import Mathlib.Tactic

/-!
Messages on a byte stream. The sender writes the encodings of its messages one
after another; the receiver gets the stream in chunks and decodes every chunk
by itself. Where a chunk decodes to a message only if it is the encoding of that
message, the receiver gets the sender's messages exactly when the chunks end
where the encodings end.
-/

namespace Unx511.Machine

variable {α β : Type*} {encode : β → List α} {decode : List α → Option β}

/-- A chunk is decoded to a message only if it is its encoding. -/
def Faithful (encode : β → List α) (decode : List α → Option β) (chunk : List α) : Prop :=
  ∀ m, decode chunk = some m ↔ chunk = encode m

/-- What is decoded accounts for no more bytes than there are. -/
theorem length_decoded_le {chunks : List (List α)}
    (hfaithful : ∀ c ∈ chunks, Faithful encode decode c) :
    (((chunks.filterMap decode).map encode).flatten).length ≤ chunks.flatten.length := by
  induction chunks with
  | nil => exact le_rfl
  | cons c rest ih =>
      have hrest := ih fun d hd => hfaithful d (List.mem_cons_of_mem c hd)
      cases hdecode : decode c with
      | none =>
          rw [List.filterMap_cons_none hdecode, List.flatten_cons, List.length_append]
          omega
      | some m =>
          have hc : c = encode m := (hfaithful c List.mem_cons_self m).mp hdecode
          rw [List.filterMap_cons_some hdecode, List.map_cons, List.flatten_cons,
            List.flatten_cons, List.length_append, List.length_append, hc]
          omega

/-- If it accounts for all of them, every chunk was decoded. -/
theorem decoded_eq_of_length {chunks : List (List α)}
    (hfaithful : ∀ c ∈ chunks, Faithful encode decode c) (hne : ∀ c ∈ chunks, c ≠ [])
    (hlength : chunks.flatten.length ≤ (((chunks.filterMap decode).map encode).flatten).length) :
    chunks = (chunks.filterMap decode).map encode := by
  induction chunks with
  | nil => rfl
  | cons c rest ih =>
      have hfaithful' : ∀ d ∈ rest, Faithful encode decode d :=
        fun d hd => hfaithful d (List.mem_cons_of_mem c hd)
      have hle := length_decoded_le hfaithful'
      rw [List.flatten_cons, List.length_append] at hlength
      cases hdecode : decode c with
      | none =>
          -- an undecoded chunk is not empty, so its bytes are missing
          have hpos : 0 < c.length := List.length_pos_iff.mpr (hne c List.mem_cons_self)
          rw [List.filterMap_cons_none hdecode] at hlength
          omega
      | some m =>
          have hc : c = encode m := (hfaithful c List.mem_cons_self m).mp hdecode
          rw [List.filterMap_cons_some hdecode, List.map_cons, List.flatten_cons,
            List.length_append, ← hc] at hlength
          rw [List.filterMap_cons_some hdecode, List.map_cons, ← hc]
          congr 1
          apply ih hfaithful' (fun d hd => hne d (List.mem_cons_of_mem c hd))
          omega

/-- The chunks decode to the messages sent exactly when they have the lengths of
their encodings. -/
theorem decoded_iff_lengths {chunks : List (List α)} {msgs : List β}
    (hfaithful : ∀ c ∈ chunks, Faithful encode decode c) (hne : ∀ c ∈ chunks, c ≠ [])
    (hstream : chunks.flatten = (msgs.map encode).flatten) :
    chunks.filterMap decode = msgs ↔
      chunks.map List.length = msgs.map fun m => (encode m).length := by
  have hlengths : (msgs.map fun m => (encode m).length) = (msgs.map encode).map List.length := by
    rw [List.map_map]
    rfl
  rw [hlengths]
  constructor
  · intro hdecoded
    have hlength : chunks.flatten.length ≤
        (((chunks.filterMap decode).map encode).flatten).length := by
      rw [hdecoded, hstream]
    have hchunks := decoded_eq_of_length hfaithful hne hlength
    rw [hdecoded] at hchunks
    rw [hchunks]
  · intro hcuts
    have hchunks : chunks = msgs.map encode := List.eq_iff_flatten_eq.mpr ⟨hstream, hcuts⟩
    have hdecode : ∀ m ∈ msgs, decode (encode m) = some m := by
      intro m hm
      have hmem : encode m ∈ chunks := by
        rw [hchunks]
        exact List.mem_map_of_mem hm
      exact (hfaithful _ hmem m).mpr rfl
    rw [hchunks, List.filterMap_map]
    calc msgs.filterMap (decode ∘ encode) = msgs.filterMap some :=
          List.filterMap_congr fun m hm => hdecode m hm
      _ = msgs := List.filterMap_some

end Unx511.Machine
