import Mathlib.Data.List.Basic

/-!
# Bytes, styles and file status

The data `forward.c` of `tail` works on: the bytes of a file, the positioning
styles of `enum STYLE`, and the fields of `struct stat` that `forward` and
`follow` read.  A stream is modelled by the bytes it has not read yet together
with its read offset.
-/

namespace Userland
namespace Tail

/-- A byte of a file, as `getc` returns it. -/
abbrev Byte := UInt8

/-- The line terminator `'\n'`. -/
def newline : Byte := 10

/-- `enum STYLE`: where the display of a file starts.  `notset` and `reverse`
take the `default` branch of `forward`. -/
inductive Style
  | notset
  | fbytes
  | flines
  | rbytes
  | rlines
  | reverse
  deriving DecidableEq, Repr

/-- `st_dev` and `st_ino`: what `follow` compares to tell file objects apart. -/
structure Ident where
  /-- `st_dev`. -/
  dev : Nat
  /-- `st_ino`. -/
  ino : Nat
  deriving DecidableEq, Repr

/-- The fields of `struct stat` that `forward` and `follow` read. -/
structure Stat where
  /-- `st_dev` and `st_ino`. -/
  ident : Ident
  /-- `st_nlink`. -/
  nlink : Nat
  /-- `st_size`. -/
  size : Nat
  /-- `S_ISREG(st_mode)`. -/
  isReg : Bool
  deriving DecidableEq, Repr

/-- One test `ch == '\n' && --off == 0` of a line-counting loop: `none` when it
breaks, otherwise the count after it.  The count is never zero on entry to these
loops (`forward` handles `off == 0` before them), so the saturating `off - 1` of
`Nat` never differs from the C decrement where it matters. -/
def examine (b : Byte) (off : Nat) : Option Nat :=
  if b = newline then (if off = 1 then none else some (off - 1)) else some off

@[simp] theorem examine_of_ne {b : Byte} (h : b ≠ newline) (off : Nat) :
    examine b off = some off := by
  simp [examine, h]

@[simp] theorem examine_newline_one : examine newline 1 = none := rfl

theorem examine_newline {off : Nat} (h : off ≠ 1) :
    examine newline off = some (off - 1) := by
  simp [examine, h]

end Tail
end Userland
