import Mathlib.Data.List.Infix
import Mathlib.Tactic

/-!
Chunks that are put one behind the other into a store of bounded size. A chunk
that does not fit is dropped whole, and later chunks may fit again. Nothing here
knows what the chunks are.
-/

namespace Unx511.Machine

variable {β : Type*} {capacity : Nat}

/-- The store after one more chunk. -/
def packStep (capacity : Nat) (stored chunk : List β) : List β :=
  if stored.length + chunk.length ≤ capacity then stored ++ chunk else stored

/-- What the store holds after the chunks. -/
def pack (capacity : Nat) (chunks : List (List β)) : List β :=
  chunks.foldl (packStep capacity) []

/-- The chunk fits behind what is stored of the chunks before it. -/
def Fits (capacity : Nat) (before : List (List β)) (chunk : List β) : Prop :=
  (pack capacity before).length + chunk.length ≤ capacity

instance (before : List (List β)) (chunk : List β) : Decidable (Fits capacity before chunk) :=
  inferInstanceAs (Decidable (_ ≤ _))

/-- No chunk is stored after a dropped one. -/
def StopsAtDrop (capacity : Nat) (chunks : List (List β)) : Prop :=
  ∀ before chunk between later back,
    chunks = before ++ chunk :: (between ++ later :: back) →
      ¬ Fits capacity before chunk → ¬ Fits capacity (before ++ chunk :: between) later

theorem pack_concat (chunks : List (List β)) (chunk : List β) :
    pack capacity (chunks ++ [chunk]) = packStep capacity (pack capacity chunks) chunk := by
  simp [pack, List.foldl_append]

theorem pack_concat_of_fits {chunks : List (List β)} {chunk : List β}
    (h : Fits capacity chunks chunk) :
    pack capacity (chunks ++ [chunk]) = pack capacity chunks ++ chunk := by
  rw [pack_concat]
  exact if_pos h

theorem pack_concat_of_not_fits {chunks : List (List β)} {chunk : List β}
    (h : ¬ Fits capacity chunks chunk) :
    pack capacity (chunks ++ [chunk]) = pack capacity chunks := by
  rw [pack_concat]
  exact if_neg h

theorem length_pack_le (chunks : List (List β)) : (pack capacity chunks).length ≤ capacity := by
  induction chunks using List.reverseRecOn with
  | nil => exact Nat.zero_le _
  | append_singleton chunks chunk ih =>
      by_cases h : Fits capacity chunks chunk
      · rw [pack_concat_of_fits h, List.length_append]
        exact h
      · rwa [pack_concat_of_not_fits h]

/-- The store holds some of the chunks, whole and in their order. -/
theorem pack_eq_flatten_sublist (capacity : Nat) (chunks : List (List β)) :
    ∃ kept : List (List β), kept.Sublist chunks ∧ pack capacity chunks = kept.flatten := by
  induction chunks using List.reverseRecOn with
  | nil => exact ⟨[], List.Sublist.refl _, rfl⟩
  | append_singleton chunks chunk ih =>
      obtain ⟨kept, hsub, hpack⟩ := ih
      by_cases h : Fits capacity chunks chunk
      · refine ⟨kept ++ [chunk], hsub.append (List.Sublist.refl _), ?_⟩
        rw [pack_concat_of_fits h, hpack, List.flatten_append, List.flatten_singleton]
      · refine ⟨kept, hsub.trans (List.sublist_append_left _ _), ?_⟩
        rw [pack_concat_of_not_fits h, hpack]

/-- Where every chunk fits, all of them are stored. -/
theorem pack_of_all_fit {chunks : List (List β)}
    (hfit : ∀ before chunk back, chunks = before ++ chunk :: back → Fits capacity before chunk) :
    pack capacity chunks = chunks.flatten := by
  induction chunks using List.reverseRecOn with
  | nil => rfl
  | append_singleton chunks chunk ih =>
      have hlast : Fits capacity chunks chunk := hfit chunks chunk [] rfl
      have hrest := ih fun before c back h => hfit before c (back ++ [chunk]) (by simp [h])
      rw [pack_concat_of_fits hlast, hrest, List.flatten_append, List.flatten_singleton]

theorem length_pack_le_flatten (capacity : Nat) (chunks : List (List β)) :
    (pack capacity chunks).length ≤ chunks.flatten.length := by
  obtain ⟨kept, hsub, hpack⟩ := pack_eq_flatten_sublist capacity chunks
  rw [hpack]
  exact hsub.flatten.length_le

/-- Nothing is dropped while everything together fits. -/
theorem pack_of_length_le {chunks : List (List β)} (h : chunks.flatten.length ≤ capacity) :
    pack capacity chunks = chunks.flatten := by
  apply pack_of_all_fit
  rintro before chunk back rfl
  have hbefore := length_pack_le_flatten capacity before
  rw [List.flatten_append, List.flatten_cons, List.length_append, List.length_append] at h
  unfold Fits
  omega

/-- The store holds the front of the chunks as long as none is stored after a dropped
one. -/
theorem pack_prefix {chunks : List (List β)} (hstop : StopsAtDrop capacity chunks) :
    pack capacity chunks <+: chunks.flatten := by
  induction chunks using List.reverseRecOn with
  | nil => exact List.prefix_rfl
  | append_singleton chunks chunk ih =>
      have hshort : StopsAtDrop capacity chunks := fun before c between later back h =>
        hstop before c between later (back ++ [chunk]) (by simp [h])
      by_cases h : Fits capacity chunks chunk
      · have hall : pack capacity (chunks ++ [chunk]) = (chunks ++ [chunk]).flatten := by
          apply pack_of_all_fit
          intro before c back hsplit
          by_contra hdrop
          rcases List.eq_nil_or_concat' back with rfl | ⟨between, later, rfl⟩
          · obtain ⟨rfl, hc⟩ := List.append_inj' hsplit rfl
            exact hdrop (List.singleton_inj.mp hc ▸ h)
          · rw [← List.cons_append, ← List.append_assoc] at hsplit
            obtain ⟨rfl, hc⟩ := List.append_inj' hsplit rfl
            obtain rfl := List.singleton_inj.mp hc
            exact hstop before c between chunk [] (by simp) hdrop h
        rw [hall]
      · rw [pack_concat_of_not_fits h, List.flatten_append]
        exact (ih hshort).trans (List.prefix_append _ _)

end Unx511.Machine
