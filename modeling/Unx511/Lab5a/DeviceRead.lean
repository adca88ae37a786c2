import Unx511.Lab5a.HardwareDevice

/-!
Lab 5a: `hardware_device_read` while `hardwareSim` updates the buffer. Nothing keeps the
two apart: the bytes are copied in between the single stores of the thread, and a letter is
raised before it is tested for going past 'z'. What is copied is bounded by the rounds that
the thread was in, and it is one whole round when the device is halted.
-/

namespace Unx511.Lab5a

open Unx511.Machine

/-- The letter after `k` updates. -/
def letter (k : Nat) : UInt8 := UInt8.ofNat (97 + k % 26)

/-- `'{'`, one past 'z' -/
def pastZ : UInt8 := 123

theorem letter_cases (k : Nat) :
    (letter k ≠ 122 ∧ letter k + 1 = letter (k + 1)) ∨
      (letter k = 122 ∧ letter k + 1 = pastZ ∧ letter (k + 1) = 97) := by
  have hall : ∀ r : Fin 26, (UInt8.ofNat (97 + r.val) ≠ 122 ∧
      UInt8.ofNat (97 + r.val) + 1 = UInt8.ofNat (97 + (r.val + 1) % 26)) ∨
      (UInt8.ofNat (97 + r.val) = 122 ∧ UInt8.ofNat (97 + r.val) + 1 = pastZ ∧
        UInt8.ofNat (97 + (r.val + 1) % 26) = 97) := by
    decide
  have hr := hall ⟨k % 26, Nat.mod_lt _ (by decide)⟩
  simp only [Nat.mod_add_mod] at hr
  exact hr

theorem nextLetter_letter (k : Nat) : nextLetter (letter k) = letter (k + 1) := by
  have hsmall : ∀ r : Fin 26, UInt8.ofNat (97 + r.val) ≤ 122 := by decide
  have hle : letter (k + 1) ≤ 122 := hsmall ⟨(k + 1) % 26, Nat.mod_lt _ (by decide)⟩
  unfold nextLetter
  rcases letter_cases k with ⟨_, hnext⟩ | ⟨_, hpast, hnext⟩
  · rw [hnext, if_neg (UInt8.not_lt.mpr hle)]
  · rw [hpast, hnext]
    rfl

/-- The updates that byte `j` has had. -/
def State.updates (s : State) (j : Nat) : Nat :=
  match s.sim with
  | .update i => if j < i then s.rounds else s.rounds - 1
  | _ => s.rounds

/-- Byte `j` when the thread is between two statements. -/
def State.byte (s : State) (j : Nat) : UInt8 :=
  match s.sim with
  | .fill i => if j < i then 97 else 0
  | _ => if j < BUF_LEN - 1 then letter (s.updates j) else 0

/-- The thread has not got to `while (is_running)` yet. -/
def State.filling (s : State) : Prop := ∃ i, s.sim = .fill i

/-- Where the loop variables are. -/
def State.Counts (s : State) : Prop :=
  match s.sim with
  | .fill i => i ≤ BUF_LEN - 1 ∧ s.rounds = 0
  | .update i => i ≤ BUF_LEN - 1 ∧ 0 < s.rounds
  | _ => True

structure State.Lettered (s : State) : Prop where
  counts : s.Counts
  buffer : ∀ j < BUF_LEN, s.buffer[j]? = some (s.byte j)

theorem lettered_initial : State.initial.Lettered where
  counts := ⟨Nat.zero_le _, rfl⟩
  buffer := by decide

theorem State.updates_le (s : State) (j : Nat) : s.updates j ≤ s.rounds := by
  unfold State.updates
  split
  · split
    · exact le_rfl
    · exact Nat.sub_le ..
  · exact le_rfl

/-- A statement of the thread stores into one byte at most, and no byte goes back. -/
structure Onward (s t : State) : Prop where
  lettered : t.Lettered
  updates : ∀ j, s.updates j ≤ t.updates j
  rounds : s.rounds ≤ t.rounds
  filling : t.filling → s.filling

theorem Onward.refl {s : State} (hs : s.Lettered) : Onward s s where
  lettered := hs
  updates _ := le_rfl
  rounds := le_rfl
  filling := id

theorem Onward.trans {s t u : State} (hst : Onward s t) (htu : Onward t u) : Onward s u where
  lettered := htu.lettered
  updates j := (hst.updates j).trans (htu.updates j)
  rounds := hst.rounds.trans htu.rounds
  filling h := hst.filling (htu.filling h)

/-- Outside the two `for` loops. -/
def SimPc.plain : SimPc → Bool
  | .fill _ | .update _ => false
  | _ => true

theorem updates_of_plain {s : State} (h : s.sim.plain = true) (j : Nat) :
    s.updates j = s.rounds := by
  unfold State.updates
  split
  · next i hpc =>
      rw [hpc] at h
      cases h
  · rfl

theorem byte_of_plain {s : State} (h : s.sim.plain = true) (j : Nat) :
    s.byte j = if j < BUF_LEN - 1 then letter s.rounds else 0 := by
  unfold State.byte
  split
  · next i hpc =>
      rw [hpc] at h
      cases h
  · rw [updates_of_plain h]

theorem counts_of_plain {s : State} (h : s.sim.plain = true) : s.Counts := by
  unfold State.Counts
  split
  · next i hpc =>
      rw [hpc] at h
      cases h
  · next i hpc =>
      rw [hpc] at h
      cases h
  · trivial

theorem not_filling_of_plain {s : State} (h : s.sim.plain = true) : ¬ s.filling := by
  rintro ⟨i, hpc⟩
  rw [hpc] at h
  cases h

/-- One byte is stored. -/
theorem getElem?_set_byte {buffer : List UInt8} {i : Nat} {old : UInt8} (hi : buffer[i]? = some old)
    (c : UInt8) (j : Nat) : (buffer.set i c)[j]? = if i = j then some c else buffer[j]? := by
  have hlength : i < buffer.length := (List.getElem?_eq_some_iff.mp hi).1
  rw [List.getElem?_set, if_pos hlength]

/-- Between the loops the bytes stay. -/
theorem plain_onward {s t : State} (hs : s.Lettered) (hpc : s.sim.plain = true)
    (hplain : t.sim.plain = true) (hbuffer : t.buffer = s.buffer) (hrounds : t.rounds = s.rounds) :
    Onward s t where
  lettered := by
    refine ⟨counts_of_plain hplain, fun j hj => ?_⟩
    rw [hbuffer, hs.buffer j hj, byte_of_plain hpc, byte_of_plain hplain, hrounds]
  updates j := by
    rw [updates_of_plain hpc, updates_of_plain hplain, hrounds]
  rounds := hrounds.ge
  filling h := absurd h (not_filling_of_plain hplain)

theorem fill_onward {s t : State} (hs : s.Lettered) {i : Nat} (hpc : s.sim = .fill i)
    (h : hardwareSim s = some t) : Onward s t := by
  obtain ⟨hcounts, hbuffer⟩ := hs
  unfold State.Counts at hcounts
  unfold State.byte at hbuffer
  simp only [hpc] at hcounts hbuffer
  have hupdates : ∀ j, s.updates j = s.rounds := fun j => by simp only [State.updates, hpc]
  simp only [hardwareSim, hpc] at h
  split at h
  case isTrue hi =>
    cases h
    refine ⟨⟨⟨hi, hcounts.2⟩, fun j hj => ?_⟩, fun j => (hupdates j).le, le_rfl, fun _ => ⟨i, hpc⟩⟩
    rw [getElem?_set_byte (hbuffer i (by omega)), hbuffer j hj]
    change _ = some (if j < i + 1 then 97 else 0)
    split
    · rw [if_pos (by omega)]
    · split
      · rw [if_pos (by omega)]
      · rw [if_neg (by omega)]
  case isFalse hi =>
    cases h
    refine ⟨⟨trivial, fun j hj => ?_⟩, fun j => (hupdates j).le, le_rfl, nofun⟩
    rw [getElem?_set_byte (hbuffer (BUF_LEN - 1) (by decide)), hbuffer j hj,
      byte_of_plain rfl, hcounts.2]
    split
    · rw [if_neg (by omega)]
    · rw [if_pos (by omega), if_pos (by omega)]
      rfl

theorem update_onward {s t : State} (hs : s.Lettered) {i : Nat} (hpc : s.sim = .update i)
    (h : hardwareSim s = some t) : Onward s t := by
  obtain ⟨hcounts, hbuffer⟩ := hs
  unfold State.Counts at hcounts
  unfold State.byte State.updates at hbuffer
  simp only [hpc] at hcounts hbuffer
  have hupdates : ∀ j, s.updates j = if j < i then s.rounds else s.rounds - 1 :=
    fun j => by simp only [State.updates, hpc]
  simp only [hardwareSim, hpc] at h
  split at h
  case isTrue hi =>
    cases h
    refine ⟨⟨⟨hi, hcounts.2⟩, fun j hj => ?_⟩, fun j => ?_, le_rfl, nofun⟩
    · rw [List.getElem?_modify, hbuffer j hj]
      change _ = some (if j < BUF_LEN - 1 then
        letter (if j < i + 1 then s.rounds else s.rounds - 1) else 0)
      rcases eq_or_ne i j with rfl | hne
      · have hround : s.rounds - 1 + 1 = s.rounds := by omega
        simp [hi, nextLetter_letter, hround]
      · have hsame : j < i + 1 ↔ j < i := by omega
        simp [hne, hsame]
    · rw [hupdates]
      change _ ≤ if j < i + 1 then s.rounds else s.rounds - 1
      split
      · rw [if_pos (by omega)]
      · split
        · exact Nat.sub_le ..
        · exact le_rfl
  case isFalse hi =>
    cases h
    refine ⟨⟨trivial, fun j hj => ?_⟩, fun j => State.updates_le s j, le_rfl, nofun⟩
    rw [getElem?_set_byte (hbuffer (BUF_LEN - 1) (by decide)), hbuffer j hj, byte_of_plain rfl]
    split
    · rw [if_neg (by omega)]
    · rw [if_pos (by omega), if_pos (by omega), if_pos (by omega)]

theorem hardwareSim_onward {s t : State} (hs : s.Lettered) (h : hardwareSim s = some t) :
    Onward s t := by
  cases hpc : s.sim with
  | fill i => exact fill_onward hs hpc h
  | update i => exact update_onward hs hpc h
  | testHalt =>
      have hplain : s.sim.plain = true := by rw [hpc]; rfl
      simp only [hardwareSim, hpc] at h
      split at h
      · cases h
        exact plain_onward hs hplain rfl rfl rfl
      · cases h
        refine ⟨⟨⟨Nat.zero_le _, Nat.succ_pos _⟩, fun j hj => ?_⟩, fun j => ?_, Nat.le_succ _,
          nofun⟩
        · rw [hs.buffer j hj, byte_of_plain hplain]
          rfl
        · exact State.updates_le s j
  | testRunning =>
      have hplain : s.sim.plain = true := by rw [hpc]; rfl
      simp only [hardwareSim, hpc] at h
      cases h
      refine plain_onward hs hplain ?_ rfl rfl
      cases s.isRunning with
      | true => rfl
      | false => rfl
  | sleepInner | sleepOuter =>
      have hplain : s.sim.plain = true := by rw [hpc]; rfl
      simp only [hardwareSim, hpc] at h
      cases h
      exact plain_onward hs hplain rfl rfl rfl
  | returned =>
      simp only [hardwareSim, hpc] at h
      cases h

/-- Everything else leaves the thread and the buffer as they are. -/
theorem step_onward {s t : State} (hs : s.Lettered) {a : Action} (h : step s a = some t) :
    Onward s t := by
  have hsame : ∀ u : State, u.sim = s.sim → u.buffer = s.buffer → u.rounds = s.rounds →
      Onward s u := by
    intro u hsim hbuffer hrounds
    have hupdates : ∀ j, u.updates j = s.updates j := fun j => by
      simp only [State.updates, hsim, hrounds]
    refine ⟨⟨?_, fun j hj => ?_⟩, fun j => (hupdates j).ge, hrounds.ge, ?_⟩
    · simpa only [State.Counts, hsim, hrounds] using hs.counts
    · rw [hbuffer, hs.buffer j hj]
      simp only [State.byte, hsim, hupdates]
    · rintro ⟨i, hpc⟩
      exact ⟨i, hsim.symm.trans hpc⟩
  cases step_move h with
  | sim hsim => exact hardwareSim_onward hs hsim
  | @ioctl cmd _ =>
      unfold hardwareDeviceIoctl
      split
      · exact hsame _ rfl rfl rfl
      · split
        · exact hsame _ rfl rfl rfl
        · exact hsame _ rfl rfl rfl
  | stopRunning _ | clearHalt _ => exact hsame _ rfl rfl rfl

/-! The bytes one by one. -/

/-- The module with one reader. `state` goes on in whole statements and `memory` store by
store: `raised` is set between `++buffer[i]` and the `if` behind it. -/
structure Device where
  state : State
  memory : List UInt8
  raised : Bool
  copied : Fin BUF_LEN → Option UInt8

/-- `raise` is `++buffer[i]`, `wrap` the `if` behind it, and `statement` any other statement. -/
inductive DeviceAction where
  | raise
  | wrap
  | statement (a : Action)
  | beginRead
  | copy (i : Fin BUF_LEN)

/-- The update of one letter, which is two statements. -/
def SimPc.updating : SimPc → Option Nat
  | .update i => if i < BUF_LEN - 1 then some i else none
  | _ => none

/-- What the other statements of the thread store. -/
def store (pc : SimPc) (memory : List UInt8) : List UInt8 :=
  match pc with
  | .fill i => if i < BUF_LEN - 1 then memory.set i 97 else memory.set (BUF_LEN - 1) 0
  | .update _ => memory.set (BUF_LEN - 1) 0
  | _ => memory

namespace Device

def initial : Device where
  state := .initial
  memory := List.replicate BUF_LEN 0
  raised := false
  copied := fun _ => none

def step (d : Device) : DeviceAction → Option Device
  | .raise =>
      if d.raised then none
      else d.state.sim.updating.map fun i =>
        { d with memory := d.memory.modify i (· + 1), raised := true }
  | .wrap =>
      if d.raised then
        d.state.sim.updating.bind fun i => (hardwareSim d.state).map fun state =>
          { d with
            state
            memory := d.memory.modify i fun c => if c > 122 then 97 else c
            raised := false }
      else none
  | .statement .sim =>
      if d.state.sim.updating = none then
        (hardwareSim d.state).map fun state =>
          { d with state, memory := store d.state.sim d.memory }
      else none
  | .statement a => (Lab5a.step d.state a).map fun state => { d with state }
  | .beginRead => some { d with copied := fun _ => none }
  | .copy i =>
      if d.copied i = none then
        some { d with copied := Function.update d.copied i d.memory[i.val]? }
      else none

/-- The bytes are those of the whole statements, but for a letter that is being raised. -/
def Agrees (d : Device) : Prop :=
  if d.raised then
    ∃ i, d.state.sim.updating = some i ∧ d.memory = d.state.buffer.modify i (· + 1)
  else d.memory = d.state.buffer

variable {d e : Device}

theorem updating_eq_some {pc : SimPc} {i : Nat} (h : pc.updating = some i) :
    pc = .update i ∧ i < BUF_LEN - 1 := by
  unfold SimPc.updating at h
  split at h
  · obtain ⟨hi, heq⟩ := Option.ite_none_right_eq_some.mp h
    cases heq
    exact ⟨rfl, hi⟩
  · cases h

/-- The two statements of an update come to the update as a whole. -/
theorem modify_wrap (buffer : List UInt8) (i : Nat) :
    (buffer.modify i (· + 1)).modify i (fun c => if c > 122 then 97 else c) =
      buffer.modify i nextLetter := by
  rw [List.modify_modify_eq]
  rfl

theorem hardwareSim_store {s t : State} (hpc : s.sim.updating = none) (h : hardwareSim s = some t) :
    t.buffer = store s.sim s.buffer := by
  unfold hardwareSim at h
  split at h
  case h_1 i hsim =>
    rw [hsim]
    unfold store
    split at h
    case isTrue hi =>
      cases h
      exact (if_pos hi).symm
    case isFalse hi =>
      cases h
      exact (if_neg hi).symm
  case h_3 hsim =>
    rw [hsim]
    split at h
    · cases h
      rfl
    · cases h
      rfl
  case h_4 i hsim =>
    have hi : ¬ i < BUF_LEN - 1 := by
      intro hi
      have hsome : (SimPc.update i).updating = some i := if_pos hi
      rw [hsim, hsome] at hpc
      cases hpc
    rw [if_neg hi] at h
    cases h
    rw [hsim]
    rfl
  case h_7 => cases h
  all_goals
    rename_i hsim
    cases h
    rw [hsim]
    rfl

/-- What byte `j` can be in a read that begins in `s` and ends after so many rounds. -/
def ReadByte (s : State) (rounds j : Nat) (c : UInt8) : Prop :=
  if j = BUF_LEN - 1 then c = 0
  else
    (∃ k, s.updates j ≤ k ∧ k ≤ rounds ∧
      (c = letter k ∨ letter k = 122 ∧ k < rounds ∧ c = pastZ)) ∨ s.filling ∧ c = 0

theorem ReadByte.mono {s t : State} {j rounds rounds' : Nat} {c : UInt8}
    (h : ReadByte t rounds j c) (hupdates : s.updates j ≤ t.updates j)
    (hfilling : t.filling → s.filling) (hrounds : rounds ≤ rounds') : ReadByte s rounds' j c := by
  unfold ReadByte at h ⊢
  split
  case isTrue hj =>
    rw [if_pos hj] at h
    exact h
  case isFalse hj =>
    rw [if_neg hj] at h
    rcases h with ⟨k, hlow, hhigh, hc⟩ | ⟨hfill, hc⟩
    · left
      refine ⟨k, hupdates.trans hlow, hhigh.trans hrounds, ?_⟩
      rcases hc with hc | ⟨hz, hlt, hc⟩
      · exact .inl hc
      · exact .inr ⟨hz, hlt.trans_le hrounds, hc⟩
    · exact .inr ⟨hfilling hfill, hc⟩

theorem readByte_byte {s : State} (hs : s.Lettered) {j : Nat} (hj : j < BUF_LEN) :
    ReadByte s s.rounds j (s.byte j) := by
  have hcounts := hs.counts
  have hletter : ∀ k, s.updates j = k → s.byte j = (if j < BUF_LEN - 1 then letter k else 0) →
      ReadByte s s.rounds j (s.byte j) := by
    intro k hk hbyte
    unfold ReadByte
    rw [hbyte]
    split
    · rw [if_neg (by omega)]
    · rw [if_pos (by omega)]
      exact .inl ⟨k, hk.le, hk ▸ s.updates_le j, .inl rfl⟩
  cases hpc : s.sim with
  | fill i =>
      unfold State.Counts at hcounts
      simp only [hpc] at hcounts
      unfold ReadByte State.byte State.updates
      simp only [hpc]
      split
      · rw [if_neg (by omega)]
      · split
        · exact .inl ⟨0, hcounts.2.le, Nat.zero_le _, .inl rfl⟩
        · exact .inr ⟨⟨i, hpc⟩, rfl⟩
  | update i =>
      apply hletter _ rfl
      unfold State.byte
      simp only [hpc]
  | testRunning | testHalt | sleepInner | sleepOuter | returned =>
      apply hletter _ rfl
      unfold State.byte
      simp only [hpc]

/-- What a copy can find in the memory. -/
theorem readByte_memory (hlettered : d.state.Lettered) (hagrees : d.Agrees) {j : Nat}
    (hj : j < BUF_LEN) {c : UInt8} (hc : d.memory[j]? = some c) :
    ReadByte d.state d.state.rounds j c := by
  have hbuffer := hlettered.buffer j hj
  unfold Agrees at hagrees
  split at hagrees
  case isFalse =>
    rw [hagrees, hbuffer] at hc
    cases hc
    exact readByte_byte hlettered hj
  case isTrue =>
    obtain ⟨i, hupdating, hmemory⟩ := hagrees
    obtain ⟨hpc, hi⟩ := updating_eq_some hupdating
    rw [hmemory, List.getElem?_modify, hbuffer] at hc
    cases hc
    rcases eq_or_ne i j with rfl | hne
    · -- the letter that is being raised
      have hpos : 0 < d.state.rounds := by
        have hcounts := hlettered.counts
        unfold State.Counts at hcounts
        rw [hpc] at hcounts
        exact hcounts.2
      have hupdates : d.state.updates i = d.state.rounds - 1 := by
        simp only [State.updates, hpc, Nat.lt_irrefl, if_false]
      have hbyte : d.state.byte i = letter (d.state.rounds - 1) := by
        simp only [State.byte, hpc, if_pos hi, hupdates]
      have hround : d.state.rounds - 1 + 1 = d.state.rounds := by omega
      unfold ReadByte
      rw [if_neg (by omega), hbyte, hupdates]
      simp only [if_true]
      left
      rcases letter_cases (d.state.rounds - 1) with ⟨_, hnext⟩ | ⟨hz, hpast, _⟩
      · rw [hnext, hround]
        exact ⟨d.state.rounds, Nat.sub_le .., le_rfl, .inl rfl⟩
      · rw [hpast]
        exact ⟨d.state.rounds - 1, le_rfl, Nat.sub_le .., .inr ⟨hz, by omega, rfl⟩⟩
    · simp only [if_neg hne]
      exact readByte_byte hlettered hj

/-- What a step does to the device, the copy aside. -/
structure Steps (d e : Device) : Prop where
  onward : Onward d.state e.state
  agrees : e.Agrees

/-- An action that is not the thread's leaves the thread and the bytes alone. -/
theorem step_other {s t : State} {a : Action} (ha : a ≠ .sim) (h : Lab5a.step s a = some t) :
    t.sim = s.sim ∧ t.buffer = s.buffer := by
  cases step_move h with
  | sim _ => exact absurd rfl ha
  | @ioctl cmd _ =>
      unfold hardwareDeviceIoctl
      split
      · exact ⟨rfl, rfl⟩
      · split
        · exact ⟨rfl, rfl⟩
        · exact ⟨rfl, rfl⟩
  | stopRunning _ | clearHalt _ => exact ⟨rfl, rfl⟩

theorem agrees_of_same {s : State} (hagrees : d.Agrees) (hsim : s.sim = d.state.sim)
    (hbuffer : s.buffer = d.state.buffer) : Agrees { d with state := s } := by
  unfold Agrees at hagrees ⊢
  rw [hsim, hbuffer]
  exact hagrees

theorem step_steps (hlettered : d.state.Lettered) (hagrees : d.Agrees) {a : DeviceAction}
    (h : d.step a = some e) : Steps d e := by
  cases a with
  | raise =>
      obtain ⟨hraised, h⟩ := Option.ite_none_left_eq_some.mp h
      obtain ⟨i, hupdating, rfl⟩ := Option.map_eq_some_iff.mp h
      refine ⟨Onward.refl hlettered, ?_⟩
      unfold Agrees at hagrees ⊢
      rw [if_neg hraised] at hagrees
      rw [if_pos rfl]
      exact ⟨i, hupdating, by rw [hagrees]⟩
  | wrap =>
      obtain ⟨hraised, h⟩ := Option.ite_none_right_eq_some.mp h
      obtain ⟨i, hupdating, h⟩ := Option.bind_eq_some_iff.mp h
      obtain ⟨s, hsim, rfl⟩ := Option.map_eq_some_iff.mp h
      refine ⟨hardwareSim_onward hlettered hsim, ?_⟩
      unfold Agrees at hagrees ⊢
      rw [if_pos hraised] at hagrees
      obtain ⟨i', hupdating', hmemory⟩ := hagrees
      obtain rfl : i = i' := Option.some.inj (hupdating.symm.trans hupdating')
      obtain ⟨hpc, hi⟩ := updating_eq_some hupdating
      simp only [hardwareSim, hpc, if_pos hi] at hsim
      cases hsim
      rw [if_neg nofun, hmemory]
      exact modify_wrap ..
  | statement b =>
      cases b with
      | sim =>
          obtain ⟨hupdating, h⟩ := Option.ite_none_right_eq_some.mp h
          obtain ⟨s, hsim, rfl⟩ := Option.map_eq_some_iff.mp h
          refine ⟨hardwareSim_onward hlettered hsim, ?_⟩
          unfold Agrees at hagrees ⊢
          split at hagrees
          case isTrue hraised =>
            obtain ⟨i, hsome, _⟩ := hagrees
            rw [hupdating] at hsome
            cases hsome
          case isFalse hraised =>
            rw [if_neg hraised, hagrees]
            exact (hardwareSim_store hupdating hsim).symm
      | ioctl cmd | stopRunning | clearHalt =>
          obtain ⟨s, hstep, rfl⟩ := Option.map_eq_some_iff.mp h
          obtain ⟨hsim, hbuffer⟩ := step_other (by nofun) hstep
          exact ⟨step_onward hlettered hstep, agrees_of_same hagrees hsim hbuffer⟩
  | beginRead =>
      cases h
      exact ⟨Onward.refl hlettered, hagrees⟩
  | copy i =>
      obtain ⟨_, h⟩ := Option.ite_none_right_eq_some.mp h
      cases h
      exact ⟨Onward.refl hlettered, hagrees⟩

/-- A read that began in `s`, at any moment of it. -/
structure Reading (s : State) (d : Device) : Prop where
  onward : Onward s d.state
  agrees : d.Agrees
  copied : ∀ i c, d.copied i = some c → ReadByte s d.state.rounds i c

/-- A copy is of what the memory holds. -/
theorem step_copied {a : DeviceAction} (ha : a ≠ .beginRead) (h : d.step a = some e)
    {i : Fin BUF_LEN} {c : UInt8} (hc : e.copied i = some c) :
    d.copied i = some c ∨ d.memory[i.val]? = some c ∧ e.state = d.state := by
  cases a with
  | raise =>
      obtain ⟨_, h⟩ := Option.ite_none_left_eq_some.mp h
      obtain ⟨_, _, rfl⟩ := Option.map_eq_some_iff.mp h
      exact .inl hc
  | wrap =>
      obtain ⟨_, h⟩ := Option.ite_none_right_eq_some.mp h
      obtain ⟨_, _, h⟩ := Option.bind_eq_some_iff.mp h
      obtain ⟨_, _, rfl⟩ := Option.map_eq_some_iff.mp h
      exact .inl hc
  | statement b =>
      cases b with
      | sim =>
          obtain ⟨_, h⟩ := Option.ite_none_right_eq_some.mp h
          obtain ⟨_, _, rfl⟩ := Option.map_eq_some_iff.mp h
          exact .inl hc
      | ioctl cmd | stopRunning | clearHalt =>
          obtain ⟨_, _, rfl⟩ := Option.map_eq_some_iff.mp h
          exact .inl hc
  | beginRead => exact absurd rfl ha
  | copy j =>
      obtain ⟨_, h⟩ := Option.ite_none_right_eq_some.mp h
      cases h
      change Function.update d.copied j _ i = some c at hc
      rcases eq_or_ne i j with rfl | hne
      · rw [Function.update_self] at hc
        exact .inr ⟨hc, rfl⟩
      · rw [Function.update_of_ne hne] at hc
        exact .inl hc

theorem Reading.step {s : State} (h : Reading s d) {a : DeviceAction} (ha : a ≠ .beginRead)
    (hstep : d.step a = some e) : Reading s e := by
  obtain ⟨honward, hagrees⟩ := step_steps h.onward.lettered h.agrees hstep
  refine ⟨h.onward.trans honward, hagrees, fun i c hc => ?_⟩
  rcases step_copied ha hstep hc with hold | ⟨hmemory, hstate⟩
  · exact (h.copied i c hold).mono le_rfl id honward.rounds
  · have hread := readByte_memory h.onward.lettered h.agrees i.isLt hmemory
    rw [hstate]
    exact hread.mono (h.onward.updates i) h.onward.filling le_rfl

theorem Reading.run {s : State} (h : Reading s d) {acts : List DeviceAction}
    (hacts : ∀ a ∈ acts, a ≠ .beginRead) (hrun : Machine.run Device.step d acts = some e) :
    Reading s e := by
  induction acts generalizing d with
  | nil =>
      cases hrun
      exact h
  | cons a rest ih =>
      rw [run_cons] at hrun
      obtain ⟨u, hstep, hrest⟩ := Option.bind_eq_some_iff.mp hrun
      exact ih (h.step (hacts a List.mem_cons_self) hstep)
        (fun b hb => hacts b (List.mem_cons_of_mem a hb)) hrest

theorem lettered_agrees {acts : List DeviceAction}
    (hrun : Machine.run Device.step Device.initial acts = some d) :
    d.state.Lettered ∧ d.Agrees := by
  refine (Reaches.of_any_run acts hrun).invariant (I := fun u => u.state.Lettered ∧ u.Agrees)
    ⟨lettered_initial, rfl⟩ fun u a v hu _ hstep => ?_
  obtain ⟨honward, hagrees⟩ := step_steps hu.1 hu.2 hstep
  exact ⟨honward.lettered, hagrees⟩

/-! A halted device. -/

/-- The action does not clear `is_halt`. -/
def KeepsHalt : DeviceAction → Prop
  | .statement (.ioctl cmd) => cmd ≠ HARDWARE_DEVICE_RESUME
  | .statement .clearHalt => False
  | _ => True

/-- Halted, the thread finishes its round and begins no other. -/
theorem hardwareSim_halted {s t : State} (hhalt : s.isHalt = true) (h : hardwareSim s = some t) :
    t.isHalt = true ∧ t.rounds = s.rounds ∧
      (s.sim.plain = true → t.sim.plain = true ∧ t.buffer = s.buffer) := by
  unfold hardwareSim at h
  split at h
  case h_1 i hpc | h_4 i hpc =>
    split at h
    all_goals
      cases h
      refine ⟨hhalt, rfl, fun hplain => ?_⟩
      rw [hpc] at hplain
      cases hplain
  case h_2 =>
    cases h
    refine ⟨hhalt, rfl, fun _ => ⟨?_, rfl⟩⟩
    cases s.isRunning with
    | true => rfl
    | false => rfl
  case h_3 =>
    rw [if_pos hhalt] at h
    cases h
    exact ⟨hhalt, rfl, fun _ => ⟨rfl, rfl⟩⟩
  case h_5 | h_6 =>
    cases h
    exact ⟨hhalt, rfl, fun _ => ⟨rfl, rfl⟩⟩
  case h_7 => cases h

/-- The states of the device while it is halted, from `s` on. -/
structure Halted (s : State) (d : Device) : Prop where
  isHalt : d.state.isHalt = true
  rounds : d.state.rounds = s.rounds
  plain : s.sim.plain = true → d.state.sim.plain = true ∧ d.state.buffer = s.buffer

theorem Halted.other {s t : State} (h : Halted s d) {b : Action} (hb : b ≠ .sim)
    (hkeeps : KeepsHalt (.statement b)) (hstep : Lab5a.step d.state b = some t) :
    Halted s { d with state := t } := by
  obtain ⟨hsim, hbuffer⟩ := step_other hb hstep
  have hplain : s.sim.plain = true → t.sim.plain = true ∧ t.buffer = s.buffer := by
    rw [hsim, hbuffer]
    exact h.plain
  cases step_move hstep with
  | sim _ => exact absurd rfl hb
  | @ioctl cmd _ =>
      have hresume : cmd ≠ HARDWARE_DEVICE_RESUME := hkeeps
      unfold hardwareDeviceIoctl at hplain ⊢
      rw [if_neg hresume] at hplain ⊢
      split
      · exact ⟨rfl, h.rounds, by simpa using h.plain⟩
      · exact ⟨h.isHalt, h.rounds, h.plain⟩
  | stopRunning _ => exact ⟨h.isHalt, h.rounds, hplain⟩
  | clearHalt _ => exact hkeeps.elim

theorem Halted.sim {s t : State} (h : Halted s d) (hsim : hardwareSim d.state = some t)
    (memory : List UInt8) (raised : Bool) :
    Halted s { d with state := t, memory, raised } := by
  obtain ⟨hhalt, hrounds, hplain⟩ := hardwareSim_halted h.isHalt hsim
  refine ⟨hhalt, hrounds.trans h.rounds, fun hs => ?_⟩
  obtain ⟨hd, hbuffer⟩ := h.plain hs
  exact ⟨(hplain hd).1, (hplain hd).2.trans hbuffer⟩

theorem Halted.step {s : State} (h : Halted s d) {a : DeviceAction} (hkeeps : KeepsHalt a)
    (hstep : d.step a = some e) : Halted s e := by
  cases a with
  | raise =>
      obtain ⟨_, hstep⟩ := Option.ite_none_left_eq_some.mp hstep
      obtain ⟨_, _, rfl⟩ := Option.map_eq_some_iff.mp hstep
      exact ⟨h.isHalt, h.rounds, h.plain⟩
  | wrap =>
      obtain ⟨_, hstep⟩ := Option.ite_none_right_eq_some.mp hstep
      obtain ⟨_, _, hstep⟩ := Option.bind_eq_some_iff.mp hstep
      obtain ⟨_, hsim, rfl⟩ := Option.map_eq_some_iff.mp hstep
      exact h.sim hsim ..
  | statement b =>
      cases b with
      | sim =>
          obtain ⟨_, hstep⟩ := Option.ite_none_right_eq_some.mp hstep
          obtain ⟨_, hsim, rfl⟩ := Option.map_eq_some_iff.mp hstep
          exact h.sim hsim ..
      | ioctl cmd | stopRunning | clearHalt =>
          obtain ⟨_, hother, rfl⟩ := Option.map_eq_some_iff.mp hstep
          exact h.other (by nofun) hkeeps hother
  | beginRead =>
      cases hstep
      exact ⟨h.isHalt, h.rounds, h.plain⟩
  | copy i =>
      obtain ⟨_, hstep⟩ := Option.ite_none_right_eq_some.mp hstep
      cases hstep
      exact ⟨h.isHalt, h.rounds, h.plain⟩

/-- Outside the loops the memory holds one letter, and a NUL behind. -/
theorem memory_of_plain (hlettered : d.state.Lettered) (hagrees : d.Agrees)
    (hplain : d.state.sim.plain = true) {j : Nat} (hj : j < BUF_LEN) :
    d.memory[j]? = some (if j < BUF_LEN - 1 then letter d.state.rounds else 0) := by
  unfold Agrees at hagrees
  split at hagrees
  case isTrue =>
    obtain ⟨i, hupdating, _⟩ := hagrees
    rw [(updating_eq_some hupdating).1] at hplain
    cases hplain
  case isFalse => rw [hagrees, hlettered.buffer j hj, byte_of_plain hplain]

/-- A read of a halted device, which begins in `s`. -/
structure HaltedReading (s : State) (d : Device) : Prop where
  reading : Reading s d
  halted : Halted s d
  same : s.sim.plain = true → ∀ i c, d.copied i = some c →
    c = if i.val < BUF_LEN - 1 then letter s.rounds else 0

theorem HaltedReading.run {s : State} (h : HaltedReading s d) {acts : List DeviceAction}
    (hacts : ∀ a ∈ acts, a ≠ .beginRead ∧ KeepsHalt a)
    (hrun : Machine.run Device.step d acts = some e) : HaltedReading s e := by
  induction acts generalizing d with
  | nil =>
      cases hrun
      exact h
  | cons a rest ih =>
      rw [run_cons] at hrun
      obtain ⟨u, hstep, hrest⟩ := Option.bind_eq_some_iff.mp hrun
      obtain ⟨hbegin, hkeeps⟩ := hacts a List.mem_cons_self
      refine ih ⟨h.reading.step hbegin hstep, h.halted.step hkeeps hstep, fun hplain i c hc => ?_⟩
        (fun b hb => hacts b (List.mem_cons_of_mem a hb)) hrest
      rcases step_copied hbegin hstep hc with hold | ⟨hmemory, _⟩
      · exact h.same hplain i c hold
      · have hletters := memory_of_plain h.reading.onward.lettered h.reading.agrees
          (h.halted.plain hplain).1 i.isLt
        rw [hmemory, h.halted.rounds] at hletters
        exact Option.some.inj hletters

/-- In every run, a byte that a read has copied is the letter of a round between the one
that its byte was in when the read began and the last one that has begun, or the `'{'` that
stands there before 'a'; only a read that began before the thread had filled the buffer
finds a NUL in front of the last byte, which is always one. -/
theorem read_bytes {acts more : List DeviceAction} {d e : Device}
    (hrun : run Device.step Device.initial acts = some d)
    (hmore : run Device.step d (.beginRead :: more) = some e)
    (hone : ∀ a ∈ more, a ≠ .beginRead) {i : Fin BUF_LEN} {c : UInt8}
    (hc : e.copied i = some c) : ReadByte d.state e.state.rounds i c := by
  obtain ⟨hlettered, hagrees⟩ := lettered_agrees hrun
  have hreading : Reading d.state { d with copied := fun _ => none } :=
    ⟨Onward.refl hlettered, hagrees, fun _ _ hnone => nomatch hnone⟩
  exact (hreading.run hone hmore).copied i c hc

def byte0 : Fin BUF_LEN := ⟨0, by decide⟩

def byte1 : Fin BUF_LEN := ⟨1, by decide⟩

/-- The thread has filled the buffer and has raised the first letter. -/
def inFirstRound : List DeviceAction :=
  List.replicate 18 (.statement .sim) ++ [.raise, .wrap]

/-- The first byte is a round ahead of the second. -/
theorem read_bytes_firstRound :
    ∃ d e, run Device.step Device.initial inFirstRound = some d ∧
      run Device.step d [.beginRead, .copy byte0, .copy byte1] = some e ∧
      e.copied byte0 = some 98 ∧ e.copied byte1 = some 97 ∧
      ReadByte d.state e.state.rounds 0 98 ∧ ReadByte d.state e.state.rounds 1 97 := by
  have hrun : run Device.step Device.initial inFirstRound = some _ := rfl
  have hread := fun e (hmore : run Device.step _ [.beginRead, .copy byte0, .copy byte1] = some e)
    (i : Fin BUF_LEN) (c : UInt8) (hc : e.copied i = some c) =>
      read_bytes hrun hmore (by simp) hc
  exact ⟨_, _, hrun, rfl, rfl, rfl, hread _ rfl byte0 98 rfl, hread _ rfl byte1 97 rfl⟩

/-- A read of a halted device sees no round but the one that was begun when it was halted
and the one before; once the thread is out of that round, it gets one letter 15 times. -/
theorem halted_read {acts more : List DeviceAction} {d e : Device}
    (hrun : run Device.step Device.initial acts = some d) (hhalt : d.state.isHalt = true)
    (hmore : run Device.step d (.beginRead :: more) = some e)
    (hkept : ∀ a ∈ more, a ≠ .beginRead ∧ KeepsHalt a) :
    e.state.rounds = d.state.rounds ∧ ∀ i c, e.copied i = some c →
      ReadByte d.state d.state.rounds i c ∧
        (d.state.sim.plain = true →
          c = if i.val < BUF_LEN - 1 then letter d.state.rounds else 0) := by
  obtain ⟨hlettered, hagrees⟩ := lettered_agrees hrun
  have hreading : HaltedReading d.state { d with copied := fun _ => none } :=
    ⟨⟨Onward.refl hlettered, hagrees, fun _ _ hnone => nomatch hnone⟩,
      ⟨hhalt, rfl, fun hplain => ⟨hplain, rfl⟩⟩, fun _ _ _ hnone => nomatch hnone⟩
  have hend := hreading.run hkept hmore
  refine ⟨hend.halted.rounds, fun i c hc => ⟨?_, fun hplain => hend.same hplain i c hc⟩⟩
  rw [← hend.halted.rounds]
  exact hend.reading.copied i c hc

/-- The device is halted in its first round, which the thread finishes. -/
def haltInFirstRound : List DeviceAction :=
  inFirstRound ++ [.statement (.ioctl HARDWARE_DEVICE_HALT)] ++
    (List.replicate 14 [.raise, .wrap]).flatten ++ [.statement .sim]

theorem halted_read_firstRound :
    ∃ d e, run Device.step Device.initial haltInFirstRound = some d ∧
      run Device.step d [.beginRead, .copy byte0, .statement .sim, .copy byte1] = some e ∧
      e.copied byte1 = some 98 ∧ e.state.rounds = d.state.rounds ∧
      98 = if 1 < BUF_LEN - 1 then letter d.state.rounds else 0 := by
  have hrun : run Device.step Device.initial haltInFirstRound = some _ := rfl
  have hread := fun e (hmore : run Device.step _
    [.beginRead, .copy byte0, .statement .sim, .copy byte1] = some e) =>
      halted_read hrun rfl hmore (by simp [KeepsHalt])
  exact ⟨_, _, hrun, rfl, rfl, (hread _ rfl).1, ((hread _ rfl).2 byte1 98 rfl).2 rfl⟩

end Device

end Unx511.Lab5a
