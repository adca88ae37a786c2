import Unx511.Text.CString

/-!
Assignment 2, the branch of `intfMonitor.cpp` that answers "Set Link Up": the
`struct ifreq` that it hands to `ioctl(SIOCSIFFLAGS)`. The structure is a local
variable that nothing fills, so what stood there before is a parameter.
-/

namespace Unx511.Assignment2

open Text

/-- `IFNAMSIZ` -/
def ifnamsiz : Nat := 16

/-- `IFF_UP` -/
def iffUp : BitVec 16 := 1#16

/-- The members of `struct ifreq` that `SIOCSIFFLAGS` reads. -/
structure Ifreq where
  ifrName : Vector UInt8 ifnamsiz
  ifrFlags : BitVec 16
  deriving DecidableEq

namespace Ifreq

/-- `strncpy(ifr.ifr_name, interface_name.c_str(), IFNAMSIZ - 1)` -/
def copyName (interfaceName : List UInt8) (ifr : Ifreq) : Ifreq :=
  { ifr with
    ifrName := ⟨(strncpy 0 ifr.ifrName.toList interfaceName (ifnamsiz - 1)).toArray, by
      rw [List.size_toArray, length_strncpy, Vector.length_toList]
      rw [Vector.length_toList]
      decide⟩ }

/-- `ifr.ifr_flags |= IFF_UP` -/
def setUp (ifr : Ifreq) : Ifreq := { ifr with ifrFlags := ifr.ifrFlags ||| iffUp }

/-- The name that the kernel reads. -/
def name (ifr : Ifreq) : List UInt8 := cString 0 ifr.ifrName.toList

/-- The name ends inside its array. -/
def Terminated (ifr : Ifreq) : Prop := 0 ∈ ifr.ifrName.toList

instance (ifr : Ifreq) : Decidable ifr.Terminated :=
  inferInstanceAs (Decidable (0 ∈ ifr.ifrName.toList))

end Ifreq

/-- The request of the branch, when its socket could be opened. `leftover` is what
the local variable holds when the branch is entered. -/
def setLinkUp (sockOpened : Bool) (interfaceName : List UInt8) (leftover : Ifreq) : Option Ifreq :=
  if sockOpened then some (leftover.copyName interfaceName).setUp else none

/-- The request brings up the interface of that name and changes none of its other
flags, `current` being the flags that it has. -/
def Ifreq.BringsUp (interfaceName : List UInt8) (current : BitVec 16) (ifr : Ifreq) : Prop :=
  ifr.Terminated ∧ ifr.name = interfaceName ∧ ifr.ifrFlags = current ||| iffUp

theorem copyName_toList (interfaceName : List UInt8) (leftover : Ifreq) :
    (leftover.copyName interfaceName).ifrName.toList =
      strncpy 0 leftover.ifrName.toList interfaceName 15 := rfl

/-- The bytes of the array that the copy does not touch. -/
theorem drop_ifrName (leftover : Ifreq) :
    leftover.ifrName.toList.drop 15 = [leftover.ifrName[15]] := by
  have hlength : leftover.ifrName.toList.length = 16 := Vector.length_toList
  rw [List.drop_eq_getElem_cons (by omega), List.drop_of_length_le (by omega)]
  rfl

theorem copyName_terminated_iff {interfaceName : List UInt8} (hnul : 0 ∉ interfaceName)
    (leftover : Ifreq) :
    (leftover.copyName interfaceName).Terminated ↔
      interfaceName.length < 15 ∨ leftover.ifrName[15] = 0 := by
  rw [Ifreq.Terminated, copyName_toList, nul_mem_strncpy_iff, cString_eq_self hnul, drop_ifrName,
    List.mem_singleton, eq_comm (a := 0)]

/-- A name that ends inside the array is the one that was copied. -/
theorem copyName_name {interfaceName : List UInt8} (hnul : 0 ∉ interfaceName)
    (hlength : interfaceName.length ≤ 15) {leftover : Ifreq}
    (hend : interfaceName.length < 15 ∨ leftover.ifrName[15] = 0) :
    (leftover.copyName interfaceName).name = interfaceName := by
  have hself : cString 0 interfaceName = interfaceName := cString_eq_self hnul
  rw [Ifreq.name, copyName_toList]
  by_cases hshort : interfaceName.length < 15
  · rw [cString_strncpy_of_lt _ _ (by rwa [hself]), hself]
  · have hlast : leftover.ifrName[15] = 0 := hend.resolve_left hshort
    rw [cString_strncpy_of_le _ _ (by rw [hself]; omega), hself, drop_ifrName, hlast,
      cString_nul_cons, List.append_nil, List.take_of_length_le hlength]

/-- Two flag words become equal under `IFF_UP` when they differ in it at most. -/
theorem or_iffUp_eq_iff (a b : BitVec 16) :
    a ||| iffUp = b ||| iffUp ↔ ∀ i, 0 < i → a.getLsbD i = b.getLsbD i := by
  have hbit : ∀ i, iffUp.getLsbD i = decide (i = 0) := by
    intro i
    rw [iffUp, BitVec.getLsbD_one]
    simp
  constructor
  · intro h i hi
    have := congrArg (fun w => w.getLsbD i) h
    simpa [hbit, hi.ne'] using this
  · intro h
    apply BitVec.eq_of_getLsbD_eq
    intro i _
    rw [BitVec.getLsbD_or, BitVec.getLsbD_or, hbit]
    rcases Nat.eq_zero_or_pos i with rfl | hi
    · simp
    · rw [h i hi]

/-- The request is right for exactly those leftovers that already hold the flags of
the interface, `IFF_UP` aside, and a NUL behind a name of 15 bytes. -/
theorem setLinkUp_bringsUp_iff (sockOpened : Bool) (interfaceName : List UInt8)
    (hnul : 0 ∉ interfaceName) (hlength : interfaceName.length ≤ 15) (current : BitVec 16)
    (leftover : Ifreq) :
    (∀ ifr, setLinkUp sockOpened interfaceName leftover = some ifr →
        ifr.BringsUp interfaceName current) ↔
      (sockOpened = true →
        (interfaceName.length < 15 ∨ leftover.ifrName[15] = 0) ∧
          ∀ i, 0 < i → leftover.ifrFlags.getLsbD i = current.getLsbD i) := by
  cases sockOpened with
  | false => simp [setLinkUp]
  | true =>
      have hflags := or_iffUp_eq_iff leftover.ifrFlags current
      have hend := copyName_terminated_iff hnul leftover
      constructor
      · intro h _
        obtain ⟨hterm, _, hup⟩ := h _ rfl
        exact ⟨hend.mp hterm, hflags.mp hup⟩
      · intro h ifr hrequest
        obtain ⟨hlast, hsame⟩ := h rfl
        obtain rfl := Option.some.inj hrequest
        exact ⟨hend.mpr hlast, copyName_name hnul hlength hlast, hflags.mpr hsame⟩

/-- "eth0" -/
def eth0 : List UInt8 := [0x65, 0x74, 0x68, 0x30]

def cleared : Ifreq := ⟨Vector.replicate 16 0, 0⟩

/-- A cleared structure and an interface without flags. -/
theorem setLinkUp_bringsUp_cleared :
    0 ∉ eth0 ∧ eth0.length ≤ 15 ∧
      ((∀ ifr, setLinkUp true eth0 cleared = some ifr → ifr.BringsUp eth0 0) ↔
        (true = true → (eth0.length < 15 ∨ cleared.ifrName[15] = 0) ∧
          ∀ i, 0 < i → cleared.ifrFlags.getLsbD i = (0 : BitVec 16).getLsbD i)) :=
  ⟨by decide, by decide, setLinkUp_bringsUp_iff true eth0 (by decide) (by decide) 0 cleared⟩

/-- Two runs ask for the same flags only when their leftovers agree. -/
theorem setLinkUp_flags_eq_iff (interfaceName : List UInt8) (leftover leftover' : Ifreq) :
    (setLinkUp true interfaceName leftover).map Ifreq.ifrFlags =
        (setLinkUp true interfaceName leftover').map Ifreq.ifrFlags ↔
      ∀ i, 0 < i → leftover.ifrFlags.getLsbD i = leftover'.ifrFlags.getLsbD i := by
  rw [← or_iffUp_eq_iff]
  exact Option.some_inj

/-- `eth0` broadcasts and multicasts, and the stack holds the bit of `IFF_PROMISC`: the
request takes the two flags away and makes the interface promiscuous. -/
theorem setLinkUp_stale_flags :
    ¬ ∀ ifr, setLinkUp true eth0 { cleared with ifrFlags := 0x100 } = some ifr →
      ifr.BringsUp eth0 0x1002 := by
  intro h
  obtain ⟨_, _, hflags⟩ := h _ rfl
  exact absurd hflags (by decide)

end Unx511.Assignment2
