import Unx511.Posix.Descriptors
import Unx511.Text.Decimal

/-!
Lab 4: `Lab4.cpp` makes "Screen.log" its standard error and then asks the framebuffer what
the menu selects. What is printed where depends on the descriptors that the program was
started with: a new file takes the place of a standard one that is closed, and the standard
output may be "Screen.log" already.
-/

namespace Unx511.Lab4.Screen

open Unx511.Posix

/-- A program may also be started with "Screen.log" or the framebuffer among its files. -/
inductive File where
  | other (n : Nat)
  | screenLog
  | framebuffer
  deriving DecidableEq, Repr

/-- The descriptors once "Screen.log" is open and has been made the standard error, of a
program that was started with these files. -/
def redirected (files : Descriptors File) : Descriptors File :=
  (files.put .screenLog).redirect files.lowest 2

/-- In front of the menu. -/
def setUp (files : Descriptors File) : Descriptors File := (redirected files).put .framebuffer

structure FixInfo where
  id : List Char
  visual : Nat
  accel : Nat
  capabilities : Nat
  deriving DecidableEq, Repr

structure VarInfo where
  xres : Nat
  yres : Nat
  bits_per_pixel : Nat
  deriving DecidableEq, Repr

/-- A selection other than 0, with what `ioctl` returns or the text of its error. -/
structure Turn where
  choice : Int
  fixInfo : Except (List Char) FixInfo
  varInfo : Except (List Char) VarInfo

inductive Stream where
  | cout
  | cerr
  deriving DecidableEq, Repr

def Stream.fd : Stream → Nat
  | .cout => 1
  | .cerr => 2

def menu : List Char :=
  ("\nSelect an option:\n1. Fixed Screen Info\n2. Variable Screen Info\n0. Exit\n" ++
    "Enter your choice: ").toList

def field (label : String) (value : List Char) : List Char := label.toList ++ value ++ ['\n']

def printFixInfo : Except (List Char) FixInfo → Stream × List Char
  | .error message => (.cerr, field "Error getting fixed screen info: " message)
  | .ok info =>
      (.cout, "\n--- Fixed Screen Info ---\n".toList ++ field "ID: " info.id ++
        field "Visual Type: " (Text.decimal info.visual) ++
        field "Accelerator: " (Text.decimal info.accel) ++
        field "Capabilities: " (Text.decimal info.capabilities))

def printVarInfo : Except (List Char) VarInfo → Stream × List Char
  | .error message => (.cerr, field "Error getting variable screen info: " message)
  | .ok info =>
      (.cout, "\n--- Variable Screen Info ---\n".toList ++
        field "X-Resolution: " (Text.decimal info.xres) ++
        field "Y-Resolution: " (Text.decimal info.yres) ++
        field "Bits per Pixel: " (Text.decimal info.bits_per_pixel))

def Turn.prints (turn : Turn) : List (Stream × List Char) :=
  (.cout, menu) :: ((if turn.choice = 1 then [printFixInfo turn.fixInfo] else []) ++
    if turn.choice = 2 then [printVarInfo turn.varInfo] else [])

/-- The loop up to the selection of 0, and the end of `main`. -/
def session (turns : List Turn) : List (Stream × List Char) :=
  turns.flatMap Turn.prints ++
    [(.cout, menu), (.cout, "Program exited successfully.\n".toList)]

/-- What the two calls of `open` give, or the text of their errors. -/
structure Opens where
  log : Except (List Char) Unit
  framebuffer : Except (List Char) Unit

/-- The descriptors that `main` prints under, and what it prints. -/
def main (files : Descriptors File) (opens : Opens) (turns : List Turn) :
    Descriptors File × List (Stream × List Char) :=
  match opens.log, opens.framebuffer with
  | .error message, _ => (files, [(.cerr, field "Error opening log file: " message)])
  | .ok _, .error message =>
      (redirected files, [(.cerr, field "Error opening framebuffer device: " message)])
  | .ok _, .ok _ => (setUp files, session turns)

/-- What a file receives of it. -/
def received (files : Descriptors File) (file : File) (prints : List (Stream × List Char)) :
    List Char :=
  prints.flatMap fun p => if files.entry p.1.fd = some file then p.2 else []

/-- What a file receives from a run of `main`. -/
def receives (files : Descriptors File) (opens : Opens) (turns : List Turn) (file : File) :
    List Char :=
  received (main files opens turns).1 file (main files opens turns).2

end Unx511.Lab4.Screen
