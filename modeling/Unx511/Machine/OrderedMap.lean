import Mathlib.Order.Defs.LinearOrder
import Mathlib.Tactic

/-!
A map as the list of its entries in increasing order of the keys, which is the
order an ordered container is iterated in. The order is a field, so a key has at
most one entry by construction.
-/

namespace Unx511.Machine

structure OrderedMap (κ ν : Type*) [LinearOrder κ] where
  entries : List (κ × ν)
  sorted : entries.Pairwise fun a b => a.1 < b.1

namespace OrderedMap

variable {κ ν : Type*} [LinearOrder κ]

def empty : OrderedMap κ ν := ⟨[], List.Pairwise.nil⟩

instance : Membership (κ × ν) (OrderedMap κ ν) where
  mem m e := e ∈ m.entries

def keys (m : OrderedMap κ ν) : List κ := m.entries.map Prod.fst

def values (m : OrderedMap κ ν) : List ν := m.entries.map Prod.snd

/-- Insertion into the sorted list; an entry with the same key is replaced. -/
def insertEntry (k : κ) (v : ν) : List (κ × ν) → List (κ × ν)
  | [] => [(k, v)]
  | e :: rest =>
      if k < e.1 then (k, v) :: e :: rest
      else if k = e.1 then (k, v) :: rest
      else e :: insertEntry k v rest

theorem mem_insertEntry {k : κ} {v : ν} {e : κ × ν} {l : List (κ × ν)}
    (hsorted : l.Pairwise fun a b => a.1 < b.1) :
    e ∈ insertEntry k v l ↔ e = (k, v) ∨ (e ∈ l ∧ e.1 ≠ k) := by
  induction l with
  | nil => simp [insertEntry]
  | cons d rest ih =>
      obtain ⟨hhead, htail⟩ := List.pairwise_cons.mp hsorted
      unfold insertEntry
      split
      case isTrue hlt =>
        have hne : ∀ x ∈ d :: rest, x.1 ≠ k := by
          intro x hx
          rcases List.mem_cons.mp hx with rfl | hrest
          · exact hlt.ne'
          · exact (hlt.trans (hhead x hrest)).ne'
        constructor
        · intro he
          rcases List.mem_cons.mp he with heq | hmem
          · exact .inl heq
          · exact .inr ⟨hmem, hne e hmem⟩
        · rintro (heq | ⟨hmem, _⟩)
          · exact List.mem_cons.mpr (.inl heq)
          · exact List.mem_cons.mpr (.inr hmem)
      case isFalse hlt =>
        split
        case isTrue heq =>
          have hne : ∀ x ∈ rest, x.1 ≠ k := by
            intro x hx
            rw [heq]
            exact (hhead x hx).ne'
          constructor
          · intro he
            rcases List.mem_cons.mp he with hnew | hmem
            · exact .inl hnew
            · exact .inr ⟨List.mem_cons_of_mem d hmem, hne e hmem⟩
          · rintro (hnew | ⟨hmem, hk⟩)
            · exact List.mem_cons.mpr (.inl hnew)
            · rcases List.mem_cons.mp hmem with rfl | hrest
              · exact absurd heq.symm hk
              · exact List.mem_cons_of_mem _ hrest
        case isFalse heq =>
          rw [List.mem_cons, ih htail, List.mem_cons]
          constructor
          · rintro (rfl | hnew | ⟨hmem, hk⟩)
            · exact .inr ⟨.inl rfl, fun h => heq h.symm⟩
            · exact .inl hnew
            · exact .inr ⟨.inr hmem, hk⟩
          · rintro (hnew | ⟨rfl | hmem, hk⟩)
            · exact .inr (.inl hnew)
            · exact .inl rfl
            · exact .inr (.inr ⟨hmem, hk⟩)

theorem insertEntry_sorted {k : κ} {v : ν} {l : List (κ × ν)}
    (hsorted : l.Pairwise fun a b => a.1 < b.1) :
    (insertEntry k v l).Pairwise fun a b => a.1 < b.1 := by
  induction l with
  | nil => exact List.pairwise_singleton _ _
  | cons d rest ih =>
      obtain ⟨hhead, htail⟩ := List.pairwise_cons.mp hsorted
      unfold insertEntry
      split
      case isTrue hlt =>
        apply List.pairwise_cons.mpr ⟨?_, hsorted⟩
        intro x hx
        rcases List.mem_cons.mp hx with rfl | hrest
        · exact hlt
        · exact hlt.trans (hhead x hrest)
      case isFalse hlt =>
        split
        case isTrue heq =>
          apply List.pairwise_cons.mpr ⟨?_, htail⟩
          intro x hx
          change k < x.1
          rw [heq]
          exact hhead x hx
        case isFalse heq =>
          apply List.pairwise_cons.mpr ⟨?_, ih htail⟩
          intro x hx
          rcases (mem_insertEntry htail).mp hx with rfl | ⟨hmem, _⟩
          · exact lt_of_le_of_ne (not_lt.mp hlt) fun h => heq h.symm
          · exact hhead x hmem

/-- `m[k] = v` -/
def set (m : OrderedMap κ ν) (k : κ) (v : ν) : OrderedMap κ ν :=
  ⟨insertEntry k v m.entries, insertEntry_sorted m.sorted⟩

def erase (m : OrderedMap κ ν) (k : κ) : OrderedMap κ ν :=
  ⟨m.entries.filter fun e => e.1 ≠ k, m.sorted.filter _⟩

def get? (m : OrderedMap κ ν) (k : κ) : Option ν :=
  (m.entries.find? fun e => e.1 = k).map Prod.snd

theorem mem_set {m : OrderedMap κ ν} {k : κ} {v : ν} {e : κ × ν} :
    e ∈ m.set k v ↔ e = (k, v) ∨ (e ∈ m ∧ e.1 ≠ k) :=
  mem_insertEntry m.sorted

theorem mem_erase {m : OrderedMap κ ν} {k : κ} {e : κ × ν} :
    e ∈ m.erase k ↔ e ∈ m ∧ e.1 ≠ k := by
  change e ∈ m.entries.filter _ ↔ _
  rw [List.mem_filter]
  simp only [ne_eq, decide_not, Bool.not_eq_true', decide_eq_false_iff_not]
  rfl

theorem mem_keys {m : OrderedMap κ ν} {k : κ} : k ∈ m.keys ↔ ∃ v, (k, v) ∈ m := by
  unfold keys
  rw [List.mem_map]
  constructor
  · rintro ⟨⟨j, v⟩, hmem, rfl⟩
    exact ⟨v, hmem⟩
  · rintro ⟨v, hmem⟩
    exact ⟨(k, v), hmem, rfl⟩

theorem mem_values {m : OrderedMap κ ν} {v : ν} : v ∈ m.values ↔ ∃ k, (k, v) ∈ m := by
  unfold values
  rw [List.mem_map]
  constructor
  · rintro ⟨⟨k, w⟩, hmem, rfl⟩
    exact ⟨k, hmem⟩
  · rintro ⟨k, hmem⟩
    exact ⟨(k, v), hmem, rfl⟩

theorem mem_of_get? {m : OrderedMap κ ν} {k : κ} {v : ν} (h : m.get? k = some v) :
    (k, v) ∈ m := by
  obtain ⟨⟨j, w⟩, hfind, rfl⟩ := Option.map_eq_some_iff.mp h
  have hkey := List.find?_some hfind
  have hmem := List.mem_of_find?_eq_some hfind
  simp only [decide_eq_true_eq] at hkey
  subst hkey
  exact hmem

theorem get?_isSome_iff {m : OrderedMap κ ν} {k : κ} :
    (m.get? k).isSome = true ↔ k ∈ m.keys := by
  unfold get? keys
  rw [Option.isSome_map, List.find?_isSome, List.mem_map]
  simp

theorem mem_keys_set {m : OrderedMap κ ν} {k j : κ} {v : ν} :
    j ∈ (m.set k v).keys ↔ j = k ∨ j ∈ m.keys := by
  simp only [mem_keys, mem_set]
  constructor
  · rintro ⟨w, heq | ⟨hmem, _⟩⟩
    · cases heq
      exact .inl rfl
    · exact .inr ⟨w, hmem⟩
  · rintro (rfl | ⟨w, hmem⟩)
    · exact ⟨v, .inl rfl⟩
    · rcases eq_or_ne j k with rfl | hne
      · exact ⟨v, .inl rfl⟩
      · exact ⟨w, .inr ⟨hmem, hne⟩⟩

theorem mem_keys_erase {m : OrderedMap κ ν} {k j : κ} :
    j ∈ (m.erase k).keys ↔ j ∈ m.keys ∧ j ≠ k := by
  simp only [mem_keys, mem_erase]
  constructor
  · rintro ⟨w, hmem, hne⟩
    exact ⟨⟨w, hmem⟩, hne⟩
  · rintro ⟨⟨w, hmem⟩, hne⟩
    exact ⟨w, hmem, hne⟩

theorem keys_nodup (m : OrderedMap κ ν) : m.keys.Nodup :=
  List.pairwise_map.mpr (m.sorted.imp fun h => h.ne)

theorem values_erase_sublist (m : OrderedMap κ ν) (k : κ) :
    (m.erase k).values.Sublist m.values :=
  List.filter_sublist.map Prod.snd

/-- A new key adds one entry. -/
theorem perm_set {m : OrderedMap κ ν} {k : κ} (hk : k ∉ m.keys) (v : ν) :
    (m.set k v).entries.Perm ((k, v) :: m.entries) := by
  have hnodup : ∀ n : OrderedMap κ ν, n.entries.Nodup := fun n =>
    n.sorted.imp fun hlt heq => by
      rw [heq] at hlt
      exact lt_irrefl _ hlt
  have hnew : (k, v) ∉ m.entries := fun hmem => hk (mem_keys.mpr ⟨v, hmem⟩)
  rw [List.perm_ext_iff_of_nodup (hnodup _) (List.nodup_cons.mpr ⟨hnew, hnodup m⟩)]
  intro e
  rw [List.mem_cons]
  change e ∈ m.set k v ↔ _
  rw [mem_set]
  constructor
  · rintro (heq | ⟨hmem, _⟩)
    · exact .inl heq
    · exact .inr hmem
  · rintro (heq | hmem)
    · exact .inl heq
    · refine .inr ⟨hmem, ?_⟩
      rintro rfl
      exact hk (mem_keys.mpr ⟨e.2, hmem⟩)

theorem values_set_nodup {m : OrderedMap κ ν} {k : κ} {v : ν} (hk : k ∉ m.keys)
    (hv : v ∉ m.values) (h : m.values.Nodup) : (m.set k v).values.Nodup := by
  have hperm : (m.set k v).values.Perm (v :: m.values) := (perm_set hk v).map Prod.snd
  rw [hperm.nodup_iff]
  exact List.nodup_cons.mpr ⟨hv, h⟩

end OrderedMap

end Unx511.Machine
