import Userland.Tail.Forward
import Mathlib.Logic.Function.Basic

/-!
# The state of `follow`

`follow` keeps one `file_info_t` per file argument and polls them in a loop.
Between two polls the file system may change in any way; during a poll it is
fixed.  A `World` is the file system as one poll sees it, together with the
outcomes of the calls that can fail in that poll.  `Sys` is everything the
loop reads and writes: the entries, the open streams, the process's descriptors,
standard output and the cursor `last`.

Three fields of `Sys` are ghost and read by nothing but the statements: `poll`
counts the polls done, `closes` lists the streams in the order `fclose` closed
them, and `adoptions` lists the streams the entries adopted, each with the offset
it was adopted at and the poll that adopted it.  Each stream also records, as a
ghost, the poll that closed it.
-/

namespace Userland
namespace Tail

/-- The file system and the outcomes of the calls that can fail, as one poll of
`follow` sees them. -/
structure World where
  /-- The file object a path names, `none` for `ENOENT`. -/
  lookup : String → Option Ident
  /-- The bytes of each file object. -/
  content : Ident → List Byte
  /-- `st_nlink` of each file object. -/
  nlink : Ident → Nat
  /-- `S_ISREG` of each file object. -/
  isReg : Ident → Bool
  /-- `fileargs_fopen` for entry `i` fails with an error other than `ENOENT`. -/
  openFails : Nat → Bool
  /-- The `fstat` made for entry `i` fails. -/
  fstatFails : Nat → Bool
  /-- `getc` on the stream with this id fails when it reads at this offset. -/
  readFails : Nat → Nat → Bool
  /-- A file object a path names has a link. -/
  linked : ∀ path x, lookup path = some x → 0 < nlink x

/-- `fstat` of a stream that reads the file object `x`. -/
def World.stat (w : World) (x : Ident) : Stat :=
  { ident := x, nlink := w.nlink x, size := (w.content x).length, isReg := w.isReg x }

@[simp] theorem World.stat_ident (w : World) (x : Ident) : (w.stat x).ident = x := rfl

/-- A world in which paths name files by `lookup`, file objects hold `content`,
and no call fails. -/
def World.reliable (lookup : String → Option Ident) (content : Ident → List Byte) : World where
  lookup := lookup
  content := content
  nlink := fun _ => 1
  isReg := fun _ => true
  openFails := fun _ => false
  fstatFails := fun _ => false
  readFails := fun _ _ => false
  linked := fun _ _ _ => Nat.one_pos

/-- A world in which only `path` names a file, `x`, which holds `c`, and no call
fails. -/
def World.single (path : String) (x : Ident) (c : List Byte) : World :=
  World.reliable (fun p => if p = path then some x else none) fun y => if y = x then c else []

/-- A stream `follow` has opened. -/
structure Stream where
  /-- The file object it reads. -/
  ident : Ident
  /-- `fileno`. -/
  fd : Nat
  /-- The read offset. -/
  offset : Nat
  /-- The end-of-file indicator: set by a read that met the end of the file, and
  while it is set `getc` returns `EOF` without reading. -/
  eof : Bool
  /-- The error indicator: set by a read that failed. -/
  error : Bool
  /-- Ghost: the poll at which `fclose` closed it, `none` while it is open. -/
  closedAt : Option Nat
  deriving DecidableEq, Repr

/-- `file_info_t`: one file argument. -/
structure FileInfo where
  /-- `file_name`. -/
  file_name : String
  /-- `fp`: the id of the stream it holds, `none` for `NULL`. -/
  fp : Option Nat
  /-- `st`: the status taken when the stream was opened. -/
  st : Stat
  deriving DecidableEq, Repr

/-- What `follow` writes to standard output: the header `printfn` writes for an
entry, or a byte read from an entry. -/
inductive Out
  | header (i : Nat)
  | byte (i : Nat) (b : Byte)
  deriving DecidableEq, Repr

/-- Ghost: entry `entry` adopted stream `stream` when it was at offset `start`. -/
structure Adoption where
  /-- The entry. -/
  entry : Nat
  /-- The stream id. -/
  stream : Nat
  /-- The offset the stream was at when adopted. -/
  start : Nat
  /-- The poll that adopted it, `none` for the positioning loop of `follow`. -/
  poll : Option Nat
  deriving DecidableEq, Repr

/-- The globals of `tail` that `follow` reads. -/
structure Config where
  /-- `no_files`. -/
  no_files : Nat
  /-- `Fflag`: reopen files by name. -/
  Fflag : Bool
  /-- `vflag`. -/
  vflag : Bool
  /-- `qflag`. -/
  qflag : Bool

/-- `vflag || (qflag == 0 && no_files > 1)`: headers are written. -/
def Config.headers (cfg : Config) : Bool :=
  cfg.vflag || (!cfg.qflag && decide (1 < cfg.no_files))

/-- The state `follow` runs on. -/
structure Sys where
  /-- `files[i]`. -/
  files : Nat → FileInfo
  /-- Every stream opened so far, by id. -/
  streams : Nat → Option Stream
  /-- The id the next stream gets. -/
  nextId : Nat
  /-- The descriptors the process holds. -/
  fds : List Nat
  /-- Standard output. -/
  out : List Out
  /-- `last`: the entry that wrote last, `none` for `NULL`. -/
  last : Option Nat
  /-- The names `ierr` reported, in order. -/
  errs : List String
  /-- Ghost: the number of polls done. -/
  poll : Nat
  /-- Ghost: the stream ids `fclose` was called on, in order. -/
  closes : List Nat
  /-- Ghost: the adoptions, in order. -/
  adoptions : List Adoption

namespace Sys

/-- The state `main` leaves when none of the files could be opened: entry `i` is
named `name i` and holds no stream. -/
def absent (name : Nat → String) : Sys where
  files := fun i => ⟨name i, none, ⟨⟨0, 0⟩, 0, 0, false⟩⟩
  streams := fun _ => none
  nextId := 0
  fds := [0, 1, 2]
  out := []
  last := none
  errs := []
  poll := 0
  closes := []
  adoptions := []

/-- The lowest descriptor not in `fds`: what `open` returns. -/
def lowestFree (fds : List Nat) : Nat :=
  ((List.range (fds.length + 1)).find? fun fd => fd ∉ fds).getD fds.length

/-- The stream with id `id` is open. -/
def IsOpen (σ : Sys) (id : Nat) : Prop :=
  ∃ s, σ.streams id = some s ∧ s.closedAt = none

/-- Replace entry `i`. -/
@[simps]
def setFile (σ : Sys) (i : Nat) (f : FileInfo) : Sys :=
  { σ with files := Function.update σ.files i f }

/-- `fileargs_fopen(fa, file_name, "r")` for entry `i`: the id of the new stream,
at offset `0` on the file the path names with both indicators clear, with the
lowest free descriptor; `none` when the call fails. -/
def fopen (w : World) (i : Nat) (σ : Sys) : Option (Nat × Sys) :=
  if w.openFails i then none
  else
    (w.lookup (σ.files i).file_name).map fun x =>
      let fd := lowestFree σ.fds
      (σ.nextId,
        { σ with
          streams := Function.update σ.streams σ.nextId
            (some { ident := x, fd := fd, offset := 0, eof := false, error := false,
                    closedAt := none })
          nextId := σ.nextId + 1
          fds := fd :: σ.fds })

/-- `fclose` of stream `id`. -/
@[simps]
def fclose (σ : Sys) (id : Nat) : Sys :=
  { σ with
    streams := Function.update σ.streams id
      ((σ.streams id).map fun s => { s with closedAt := some σ.poll })
    fds := match σ.streams id with
      | some s => σ.fds.erase s.fd
      | none => σ.fds
    closes := σ.closes ++ [id] }

/-- `ierr(file_name)`. -/
@[simps]
def ierr (σ : Sys) (name : String) : Sys :=
  { σ with errs := σ.errs ++ [name] }

/-- Set the read offset of stream `id`. -/
@[simps]
def setOffset (σ : Sys) (id pos : Nat) : Sys :=
  { σ with
    streams := Function.update σ.streams id
      ((σ.streams id).map fun s => { s with offset := pos }) }

/-- Set the end-of-file and error indicators of stream `id`; `clearerr` clears
both. -/
@[simps]
def setIndicators (σ : Sys) (id : Nat) (eof error : Bool) : Sys :=
  { σ with
    streams := Function.update σ.streams id
      ((σ.streams id).map fun s => { s with eof := eof, error := error }) }

/-- Entry `i` adopts stream `id` with status `st`: `file->fp = ftmp;
memcpy(&file->st, &sb2, ...)`, and the ghost adoption at offset `start` in the
current poll. -/
@[simps]
def adopt (σ : Sys) (i id start : Nat) (st : Stat) : Sys :=
  { σ with
    files := Function.update σ.files i { σ.files i with fp := some id, st := st }
    adoptions := σ.adoptions ++ [⟨i, id, start, some σ.poll⟩] }

end Sys

end Tail
end Userland
