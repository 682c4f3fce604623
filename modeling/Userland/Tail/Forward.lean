import Userland.Tail.Scan

/-!
# `forward`: positioning a stream and copying the rest

`forward` positions a stream according to the style and the offset, then copies
what is left of it to standard output.  The calls that can fail (`fseeko`,
`getc`, `maparound`, `mapprint`, `munmap`, and `bytes` and `lines` of
`read.c`) answer from an `Io` record.  The file content is fixed for the
whole call; a stream is its read offset, and the bytes it has not read are the
content dropped to that offset.
-/

namespace Userland
namespace Tail

/-- The outcomes of the calls of `forward` that can fail.  A `getc` is told
apart by the offset it reads at and a `maparound` by the offset it is asked for;
`forward` makes at most one call of each other kind. -/
structure Io where
  /-- `fseeko` fails. -/
  fseekoFails : Bool
  /-- `getc` fails when it reads at this offset. -/
  getcFails : Nat → Bool
  /-- `maparound` asked for an offset: the window it maps, `none` on failure. -/
  maparound : Nat → Option Window
  /-- `mapprint` fails after writing this many bytes. -/
  mapprintCut : Option Nat
  /-- `munmap` fails. -/
  munmapFails : Bool
  /-- `bytes` or `lines` of `read.c` fail after writing this many bytes. -/
  reverseCut : Option Nat

/-- No call fails, and `maparound` returns `windows r` when asked for `r`. -/
def Io.reliable (windows : Nat → Window) : Io where
  fseekoFails := false
  getcFails := fun _ => false
  maparound := fun r => some (windows r)
  mapprintCut := none
  munmapFails := false
  reverseCut := none

@[simp] theorem Io.reliable_fseekoFails (windows : Nat → Window) :
    (Io.reliable windows).fseekoFails = false := rfl

@[simp] theorem Io.reliable_getcFails (windows : Nat → Window) (pos : Nat) :
    (Io.reliable windows).getcFails pos = false := rfl

/-- What a run of `forward` leaves behind. -/
structure Effects where
  /-- The bytes written to standard output. -/
  out : List Byte
  /-- The stream's read offset. -/
  pos : Nat
  /-- A window mapped by `rlines` is still mapped. -/
  mapped : Bool
  /-- `ierr` reported an error for the file. -/
  failed : Bool
  /-- `exit(1)` ended the process. -/
  exited : Bool
  /-- The stream's end-of-file indicator when `forward` returns: set by a `getc`
  that met the end of the file, cleared by `fseeko`. -/
  eof : Bool := false
  /-- The stream's error indicator when `forward` returns: set by a failing read. -/
  error : Bool := false
  deriving DecidableEq, Repr

/-- Nothing written yet, the stream at offset `pos`. -/
def Effects.start (pos : Nat) : Effects :=
  { out := [], pos := pos, mapped := false, failed := false, exited := false }

/-! ## The reading loops -/

/-- `fseeko` to `target` (`none` when the target offset is negative): the new
offset, `none` on failure. -/
def fseeko (io : Io) (target : Option Nat) : Option Nat :=
  if io.fseekoFails then none else target

/-- The target of `fseeko(fp, -back, SEEK_END)` over the content `s`. -/
def fromEnd (s : List Byte) (back : Nat) : Option Nat :=
  if back ≤ s.length then some (s.length - back) else none

/-- The `FBYTES` loop for a stream that is not seeked,
`while (off--) if ((ch = getc(fp)) == EOF) { if (ferror(fp)) ...; break; }`,
from offset `pos` with unread bytes `rest`: the offset it stops at, `none` on a
read error. -/
def skipBytes (io : Io) : Nat → Nat → List Byte → Option Nat
  | 0, pos, _ => some pos
  | _ + 1, pos, [] => if io.getcFails pos then none else some pos
  | off + 1, pos, _ :: rest => if io.getcFails pos then none else skipBytes io off (pos + 1) rest

/-- The `FLINES` loop, `getc` until the `off`-th newline or end of file: the
offset it stops at, `none` on a read error. -/
def skipLines (io : Io) (off pos : Nat) : List Byte → Option Nat
  | [] => if io.getcFails pos then none else some pos
  | b :: rest =>
    if io.getcFails pos then none
    else
      match examine b off with
      | none => some (pos + 1)
      | some off => skipLines io off (pos + 1) rest

/-- The copy loop `while ((ch = getc(fp)) != EOF) putchar(ch);`: the bytes it
writes, the offset it stops at, and whether it stopped on a read error. -/
def copyLoop (io : Io) (pos : Nat) : List Byte → List Byte × Nat × Bool
  | [] => ([], pos, io.getcFails pos)
  | b :: rest =>
    if io.getcFails pos then ([], pos, true)
    else
      let (out, stop, err) := copyLoop io (pos + 1) rest
      (b :: out, stop, err)

/-- Where the `switch` of `forward` leaves a run. -/
inductive Positioned
  /-- Go on to the copy loop with these effects. -/
  | proceed (e : Effects)
  /-- `forward` returns, or the process exits, with these effects. -/
  | stop (e : Effects)
  /-- The model has no result: a read outside a mapped window, or a loop that
  did not end. -/
  | fault
  deriving DecidableEq, Repr

/-- `while (getc(fp) != EOF); if (ferror(fp)) { ierr(fn); return; }`: the copy
loop without its writes. -/
def drain (io : Io) (s : List Byte) (pos : Nat) : Positioned :=
  let (_, stop, err) := copyLoop io pos (s.drop pos)
  if err then .stop { Effects.start stop with failed := true, error := true }
  else .proceed (Effects.start stop)

/-- The end of `bytes` and `lines` of `read.c`: they read the stream to its end,
write `out` and leave the stream at `stop`, or fail on a read error after writing
part of it. -/
def emitReversed (io : Io) (out : List Byte) (stop : Nat) : Positioned :=
  match io.reverseCut with
  | some k => .stop { Effects.start stop with out := out.take k, failed := true, error := true }
  | none => .proceed { Effects.start stop with out := out }

/-- Modelled from the spec: `bytes` of `read.c`, which is not among the
sources.  It reads the stream to its end through a wrap-around buffer and writes
the last `off` bytes, or all of them when the stream is shorter. -/
def bytes (io : Io) (s : List Byte) (pos off : Nat) : Positioned :=
  let rest := s.drop pos
  emitReversed io (rest.drop (rest.length - off)) (pos + rest.length)

/-- Modelled from the spec: `lines` of `read.c`, which is not among the
sources.  It reads the stream to its end through a wrap-around array of line
buffers and writes the last `off` lines, a final unterminated line counting as
one. -/
def lines (io : Io) (s : List Byte) (pos off : Nat) : Positioned :=
  let rest := s.drop pos
  emitReversed io (rest.drop (lastLinesStart rest off)) (pos + rest.length)

/-! ## `rlines` -/

/-- `rlines`: scan backward for the start of the last `off` lines, write them
with `mapprint`, seek the stream to `st_size` and unmap the window.  `rlines`
returns nothing, so every way out of it except `exit(1)` goes on to the copy
loop of `forward`.  The scan gets `st_size + 1` rounds, more than it needs
within `maparound`'s contract. -/
def rlines (io : Io) (st : Stat) (s : List Byte) (pos off : Nat) : Positioned :=
  if st.size = 0 then .proceed (Effects.start pos)
  else
    match scanLoop io.maparound s (st.size + 1) ((st.size : Int) - 2) off
        { start := false, mapoff := st.size, maplen := 0 } with
    | .badRead => .fault
    | .outOfFuel => .fault
    | .mapFailed map => .proceed { Effects.start pos with mapped := map.start, failed := true }
    | .done curoff map =>
      let start := (curoff + 1).toNat
      let shown := (s.drop start).take (st.size - start)
      match io.mapprintCut with
      | some k =>
        .stop { out := shown.take k, pos := pos, mapped := map.start, failed := true,
                exited := true }
      | none =>
        match fseeko io (some st.size) with
        | none =>
          .proceed { out := shown, pos := pos, mapped := map.start, failed := true,
                     exited := false }
        | some stop =>
          .proceed { out := shown, pos := stop, mapped := map.start && io.munmapFails,
                     failed := map.start && io.munmapFails, exited := false }

/-! ## `forward` -/

/-- The `switch (style)` of `forward` over a stream at offset `pos` of the
content `s`, with `st` the status `forward` is given. -/
def position (io : Io) (st : Stat) (s : List Byte) (pos : Nat) : Style → Nat → Positioned
  | .fbytes, off =>
    if off = 0 then .proceed (Effects.start pos)
    else if st.isReg ∧ 0 < st.size then
      match fseeko io (some (min off st.size)) with
      | none => .stop { Effects.start pos with failed := true }
      | some stop => .proceed (Effects.start stop)
    else
      match skipBytes io off pos (s.drop pos) with
      | none => .stop { Effects.start pos with failed := true, error := true }
      | some stop => .proceed (Effects.start stop)
  | .flines, off =>
    if off = 0 then .proceed (Effects.start pos)
    else
      match skipLines io off pos (s.drop pos) with
      | none => .stop { Effects.start pos with failed := true, error := true }
      | some stop => .proceed (Effects.start stop)
  | .rbytes, off =>
    if st.isReg ∧ 0 < st.size then
      if off ≤ st.size then
        match fseeko io (fromEnd s off) with
        | none => .stop { Effects.start pos with failed := true }
        | some stop => .proceed (Effects.start stop)
      else .proceed (Effects.start pos)
    else if off = 0 then drain io s pos
    else bytes io s pos off
  | .rlines, off =>
    if st.isReg ∧ 0 < st.size then
      if off = 0 then
        match fseeko io (fromEnd s 0) with
        | none => .stop { Effects.start pos with failed := true }
        | some stop => .proceed (Effects.start stop)
      else rlines io st s pos off
    else if off = 0 then drain io s pos
    else lines io s pos off
  | _, _ => .proceed (Effects.start pos)

/-- `forward`: position the stream, then copy the rest of it to standard output.
The copy loop ends on a read error, which sets the stream's error indicator, or
at the end of the file, which sets its end-of-file indicator.  `none` when the
model has no result. -/
def forward (io : Io) (st : Stat) (s : List Byte) (pos : Nat) (style : Style)
    (off : Nat) : Option Effects :=
  match position io st s pos style off with
  | .fault => none
  | .stop e => some e
  | .proceed e =>
    let (out, stop, err) := copyLoop io e.pos (s.drop e.pos)
    some { e with
      out := e.out ++ out, pos := stop, failed := e.failed || err, error := e.error || err, eof := !err }

/-! ## Reverse-by-lines on a regular file -/

section Reliable

variable {s : List Byte} {windows : Nat → Window} {st : Stat}

/-- `maparound`'s contract for the windows of a reliable `Io`. -/
theorem Io.reliable_contract (covers : ∀ r < s.length, (windows r).Covers r s.length) :
    Contract (Io.reliable windows).maparound s.length := by
  rintro r below w found
  cases found
  exact covers r below

/-- With no failing call, `rlines` writes the bytes from `lastLinesStart` on and
leaves the stream at the end of the file with no window mapped. -/
theorem rlines_reliable (sized : st.size = s.length) (nonempty : s ≠ [])
    (covers : ∀ r < s.length, (windows r).Covers r s.length) {n : Nat} (positive : n ≠ 0)
    (pos : Nat) :
    rlines (Io.reliable windows) st s pos n =
      .proceed { out := s.drop (lastLinesStart s n), pos := s.length, mapped := false,
                 failed := false, exited := false } := by
  have filled : 0 < s.length := List.length_pos.mpr nonempty
  obtain ⟨map', done⟩ := scanLoop_done (Io.reliable_contract covers)
    (fun r _ => rfl) (st.size + 1) ((st.size : Int) - 2) n
    { start := false, mapoff := st.size, maplen := 0 } (by omega) (by omega)
    (by dsimp only; omega) (by omega)
  have start : ((plainStart s ((s.length : Int) - 2 + 1).toNat n : Int) - 1 + 1).toNat =
      lastLinesStart s n := by
    rw [lastLinesStart_eq_plainStart positive,
      show ((s.length : Int) - 2 + 1).toNat = s.length - 1 by omega]
    omega
  simp only [rlines, sized, show s.length ≠ 0 by omega, if_false] at done ⊢
  rw [done]
  simp only [start, Io.reliable, fseeko, Bool.false_eq_true, if_false, Bool.and_false]
  rw [List.take_of_length_le (by simp)]

/-- Reverse-by-lines with offset `n` on an unchanged regular non-empty file,
from a freshly opened stream, writes exactly the bytes of `s` from
`lastLinesStart s n` on, whatever windows `maparound` returns within its
contract. -/
theorem forward_rlines_eq_lastLines (n : Nat) (regular : st.isReg = true)
    (sized : st.size = s.length) (nonempty : s ≠ [])
    (covers : ∀ r < s.length, (windows r).Covers r s.length) :
    (forward (Io.reliable windows) st s 0 .rlines n).map Effects.out =
      some (s.drop (lastLinesStart s n)) := by
  have filled : 0 < s.length := List.length_pos.mpr nonempty
  by_cases zero : n = 0
  · subst zero
    simp [forward, position, regular, sized, filled, fseeko, fromEnd, Io.reliable, copyLoop,
      lastLinesStart, Effects.start]
  · simp only [forward, position, regular, sized, filled, and_self, if_true, zero, if_false]
    rw [rlines_reliable sized nonempty covers zero]
    simp [copyLoop, Io.reliable]

/-- The spec's five-line file with windows of three bytes, so that window
boundaries fall inside lines: the last two lines are `"4\n5\n"`. -/
theorem forward_rlines_five_lines_last_two :
    (forward (Io.reliable fun r => ⟨r / 3 * 3, min 3 (10 - r / 3 * 3)⟩)
        ⟨⟨0, 0⟩, 1, 10, true⟩ [49, 10, 50, 10, 51, 10, 52, 10, 53, 10] 0 .rlines 2).map
        Effects.out = some [52, 10, 53, 10] :=
  (forward_rlines_eq_lastLines 2 rfl rfl (by decide) (by decide)).trans (by decide)

end Reliable

/-! ## Failures inside `rlines` -/

/-- `rlines` returns nothing, so after a failing `maparound` (or a failing
`fseeko` in it) `forward` runs its copy loop from where the stream is, the start
of the file: on `"a\nb\n"` with `off = 1` it writes the whole file instead of a
prefix of `"b\n"`, and after a failing `fseeko` it writes `"b\n"` followed by
the whole file and leaves the window mapped. -/
theorem forward_rlines_failure_writes_outside_tail :
    (forward (Io.reliable fun _ => ⟨0, 4⟩) ⟨⟨0, 0⟩, 1, 4, true⟩ [97, 10, 98, 10] 0
        .rlines 1).map Effects.out = some [98, 10] ∧
    (forward { Io.reliable (fun _ => ⟨0, 4⟩) with maparound := fun _ => none }
        ⟨⟨0, 0⟩, 1, 4, true⟩ [97, 10, 98, 10] 0 .rlines 1).map Effects.out =
      some [97, 10, 98, 10] ∧
    (forward { Io.reliable (fun _ => ⟨0, 4⟩) with fseekoFails := true }
        ⟨⟨0, 0⟩, 1, 4, true⟩ [97, 10, 98, 10] 0 .rlines 1).map
        (fun e => (e.out, e.mapped)) = some ([98, 10, 97, 10, 98, 10], true) := by
  decide

/-! ## The scan within `maparound`'s contract -/

/-- `rlines` has a result whenever its scan ends soundly. -/
theorem rlines_ne_fault {io : Io} {st : Stat} {s : List Byte} {pos off : Nat}
    (sound : (scanLoop io.maparound s (st.size + 1) ((st.size : Int) - 2) off
      { start := false, mapoff := st.size, maplen := 0 }).Sound st.size) :
    rlines io st s pos off ≠ .fault := by
  unfold rlines
  split
  · nofun
  · split
    · next unsound => rw [unsound] at sound; exact sound.elim
    · next unsound => rw [unsound] at sound; exact sound.elim
    · nofun
    · split <;> (try split) <;> nofun

/-- Within `maparound`'s contract, on a file of at least one byte and for every
count `N`: a round of the backward scan of `rlines` reads `map.start[i]` only for
`0 ≤ i < map.maplen` (a read outside the window would end the scan unsoundly)
and either ends the loop or goes on with a smaller `curoff`; the scan `rlines`
starts ends within its `size + 1` rounds, on a failing `maparound` or with the
range `[curoff, size)` of `mapprint` inside `[0, size]`; and `rlines` always has
a result. -/
theorem rlines_scan_stays_in_window {s : List Byte} (nonempty : 0 < s.length) (N : Nat)
    {maparound : Nat → Option Window} (contract : Contract maparound s.length) :
    (∀ {fuel : Nat} {curoff : Int} {off : Nat} {map : MapInfo}, ScanInv s.length curoff map →
      (scanLoop maparound s (fuel + 1) curoff off map).Sound s.length ∨
      ∃ curoff' off' map', curoff' < curoff ∧ ScanInv s.length curoff' map' ∧
        scanLoop maparound s (fuel + 1) curoff off map = scanLoop maparound s fuel curoff' off' map') ∧
    (scanLoop maparound s (s.length + 1) ((s.length : Int) - 2) N
      { start := false, mapoff := s.length, maplen := 0 }).Sound s.length ∧
    ∀ (io : Io) (st : Stat) (pos : Nat), io.maparound = maparound → st.size = s.length →
      rlines io st s pos N ≠ .fault := by
  have start : ScanInv s.length ((s.length : Int) - 2) { start := false, mapoff := s.length, maplen := 0 } :=
    ⟨by omega, by omega, by dsimp only; omega⟩
  have sound := @scanLoop_sound _ s contract (s.length + 1) _ N _ start (by omega)
  refine ⟨scanLoop_round contract, sound, fun io st pos same sized => rlines_ne_fault ?_⟩
  rw [same, sized]
  exact sound

theorem rlines_scan_stays_in_window_two_lines :
    0 < [97, 10, 98, 10].length ∧ Contract (Io.reliable fun r => ⟨r / 2 * 2, 2⟩).maparound 4 ∧
    (scanLoop (Io.reliable fun r => ⟨r / 2 * 2, 2⟩).maparound [97, 10, 98, 10] (4 + 1) ((4 : Int) - 2) 1
      { start := false, mapoff := 4, maplen := 0 }).Sound 4 :=
  ⟨by decide, Io.reliable_contract (s := [97, 10, 98, 10]) (by decide),
    (rlines_scan_stays_in_window (s := [97, 10, 98, 10]) (by decide) 1
      (Io.reliable_contract (s := [97, 10, 98, 10]) (by decide))).2.1⟩

end Tail
end Userland
