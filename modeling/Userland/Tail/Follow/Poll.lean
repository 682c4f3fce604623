import Userland.Tail.Follow.State

/-!
# The poll loop of `follow`

`show` copies what an entry's stream has not read yet, the reopen step
re-examines an entry's path when `Fflag` is set, and one poll runs the reopen
step over all entries and then `show` over those with a stream.  `follow` first
positions every open file with `forward` and sets `last` to the final entry.
-/

namespace Userland
namespace Tail

/-- `for (i = 0; i < n; i++) body(i)`. -/
def forEach {α : Type} (body : Nat → α → α) : Nat → α → α
  | 0, a => a
  | n + 1, a => body n (forEach body n a)

@[simp] theorem forEach_zero {α : Type} (body : Nat → α → α) (a : α) : forEach body 0 a = a := rfl

@[simp] theorem forEach_succ {α : Type} (body : Nat → α → α) (n : Nat) (a : α) :
    forEach body (n + 1) a = body n (forEach body n a) := rfl

namespace Sys

/-- Drop entry `i`'s stream:
`if (file->fp != NULL) { fclose(file->fp); file->fp = NULL; }`. -/
def dropStream (σ : Sys) (i : Nat) : Sys :=
  match (σ.files i).fp with
  | none => σ
  | some id => (σ.fclose id).setFile i { σ.files i with fp := none }

/-- `fstat(fileno(fp), &sb)` in the handling of entry `i`, on stream `id`:
`none` when it fails. -/
def fstat (σ : Sys) (w : World) (i id : Nat) : Option Stat :=
  if w.fstatFails i then none else (σ.streams id).map fun s => w.stat s.ident

end Sys

/-! ## `show` -/

/-- The body of the loop of `show` for a byte `ch` of entry `i`:
`if (last != file) { if (headers) printfn(...); last = file; } putchar(ch);`. -/
def putByte (hdr : Bool) (i : Nat) (b : Byte) (σ : Sys) : Sys :=
  let σ := if σ.last = some i then σ
    else { σ with out := if hdr then σ.out ++ [.header i] else σ.out, last := some i }
  { σ with out := σ.out ++ [.byte i b] }

/-- The loop `while ((ch = getc(file->fp)) != EOF)` of `show` for entry `i`,
reading at `pos` with unread bytes `rest`: the state after its writes, the offset
it stops at, and whether it stopped on a read error. -/
def showLoop (hdr : Bool) (fails : Nat → Bool) (i : Nat) :
    Nat → List Byte → Sys → Sys × Nat × Bool
  | pos, [], σ => (σ, pos, fails pos)
  | pos, b :: rest, σ =>
    if fails pos then (σ, pos, true)
    else showLoop hdr fails i (pos + 1) rest (putByte hdr i b σ)

/-- `show(file)` for entry `i`: copy what its stream has not read (nothing while
its end-of-file indicator is set, for then the first `getc` returns `EOF`), then,
if the stream's error indicator is set, close the stream, set `fp` to `NULL` and
report it, else `clearerr`. -/
def showFile (cfg : Config) (w : World) (i : Nat) (σ : Sys) : Sys :=
  match (σ.files i).fp with
  | none => σ
  | some id =>
    match σ.streams id with
    | none => σ
    | some s =>
      match if s.eof then (σ, s.offset, false)
          else showLoop cfg.headers (w.readFails id) i s.offset
            ((w.content s.ident).drop s.offset) σ with
      | (σ', stop, err) =>
        if err || s.error then
          (((σ'.setOffset id stop).fclose id).setFile i { σ'.files i with fp := none }).ierr
            (σ.files i).file_name
        else (σ'.setOffset id stop).setIndicators id false false

/-! ## One poll -/

/-- The body of the `if (Fflag)` loop for entry `i`: reopen a missing file, or
compare the file its path names now with the one it holds, draining and dropping
the held stream when the path is gone or names another file. -/
def reopen (cfg : Config) (w : World) (i : Nat) (σ : Sys) : Sys :=
  match (σ.files i).fp with
  | none =>
    match σ.fopen w i with
    | none => σ
    | some (id, σ) =>
      match σ.fstat w i id with
      | none => σ.fclose id
      | some st => σ.adopt i id 0 st
  | some fp =>
    if (σ.streams fp).map Stream.fd = some 0 then σ
    else
      match σ.fopen w i with
      | none =>
        let σ := if w.openFails i then σ.ierr (σ.files i).file_name else σ
        (showFile cfg w i σ).dropStream i
      | some (ftmp, σ) =>
        match σ.fstat w i ftmp with
        | none => ((showFile cfg w i (σ.ierr (σ.files i).file_name)).dropStream i).fclose ftmp
        | some sb2 =>
          if sb2.ident ≠ (σ.files i).st.ident ∨ sb2.nlink = 0 then
            ((showFile cfg w i σ).dropStream i).adopt i ftmp 0 sb2
          else σ.fclose ftmp

/-- The second loop of a poll: `if (file->fp) show(file);`. -/
def showIfOpen (cfg : Config) (w : World) (i : Nat) (σ : Sys) : Sys :=
  if (σ.files i).fp.isSome then showFile cfg w i σ else σ

/-- One round of `for (;;)`: the reopen loop when `Fflag` is set, then `show` for
every entry with a stream.  The ghost poll counter moves on. -/
def pollOnce (cfg : Config) (w : World) (σ : Sys) : Sys :=
  let σ := if cfg.Fflag then forEach (reopen cfg w) cfg.no_files σ else σ
  let σ := forEach (showIfOpen cfg w) cfg.no_files σ
  { σ with poll := σ.poll + 1 }

/-- The polls of `follow`, one per world. -/
def polls (cfg : Config) : List World → Sys → Sys
  | [], σ => σ
  | w :: ws, σ => polls cfg ws (pollOnce cfg w σ)

/-! ## `follow` -/

/-- The positioning loop of `follow` for entry `i`: the header, then `forward`
on its stream, which leaves the stream's offset and indicators; `none` when
`forward` has no result or exits the process.  The stream counts as adopted at
the offset `forward` leaves. -/
def positionFile (cfg : Config) (style : Style) (off : Nat) (io : Nat → Io) (w : World)
    (i : Nat) (σ : Sys) : Option Sys :=
  match (σ.files i).fp with
  | none => some σ
  | some id =>
    match σ.streams id with
    | none => some σ
    | some s =>
      let σ := if cfg.headers then { σ with out := σ.out ++ [.header i] } else σ
      (forward (io i) (σ.files i).st (w.content s.ident) s.offset style off).bind fun e =>
        if e.exited then none
        else some { (σ.setOffset id e.pos).setIndicators id e.eof e.error with
          out := σ.out ++ e.out.map (Out.byte i)
          errs := if e.failed then σ.errs ++ [(σ.files i).file_name] else σ.errs
          adoptions := σ.adoptions ++ [⟨i, id, e.pos, none⟩] }

/-- The positioning loop over the first `n` entries. -/
def positionAll (cfg : Config) (style : Style) (off : Nat) (io : Nat → Io) (w : World) :
    Nat → Sys → Option Sys
  | 0, σ => some σ
  | n + 1, σ => (positionAll cfg style off io w n σ).bind (positionFile cfg style off io w n)

/-- `follow`: position every file in the world `w`, return when `Fflag` is unset
and no file is open, else set `last = --file` (the final entry) and poll once per
world of `ws`. -/
def follow (cfg : Config) (style : Style) (off : Nat) (io : Nat → Io) (w : World)
    (ws : List World) (σ : Sys) : Option Sys :=
  (positionAll cfg style off io w cfg.no_files σ).map fun σ =>
    if !cfg.Fflag && !(List.range cfg.no_files).any fun i => (σ.files i).fp.isSome then σ
    else polls cfg ws { σ with last := some (cfg.no_files - 1) }

/-- With headers on, a file that is missing when `follow` starts and then appears
has its first byte written with no header before it: `last = --file` pointed the
cursor at the final entry although nothing had been written. -/
theorem follow_first_byte_without_header :
    (follow ⟨1, true, true, false⟩ .rlines 10 (fun _ => Io.reliable fun _ => ⟨0, 0⟩)
        (World.single "a" ⟨1, 1⟩ []) [World.single "a" ⟨1, 1⟩ [120]]
        (Sys.absent fun _ => "a")).map Sys.out = some [.byte 0 120] := by
  rfl

end Tail
end Userland
