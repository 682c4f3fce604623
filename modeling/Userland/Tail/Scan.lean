import Userland.Tail.Basic

/-!
# The backward scan of `rlines`

`rlines` finds where the last `off` lines of a regular file begin by walking
backward from the byte before the last one, through windows that `maparound`
maps around the offset it asks for.  This module models the scan loop with its
window reads and proves that, for every sequence of windows `maparound` may
return, it ends where a plain backward scan of the whole content ends.
-/

namespace Userland
namespace Tail

/-! ## Windows -/

/-- A window `maparound` returns: the file offset of its first byte and its
length. -/
structure Window where
  /-- `mapoff`. -/
  mapoff : Nat
  /-- `maplen`. -/
  maplen : Nat
  deriving DecidableEq, Repr

/-- What `maparound` promises on success for a request at offset `r` of a file
of `size` bytes: the window holds `r` and lies inside the file. -/
def Window.Covers (w : Window) (r size : Nat) : Prop :=
  w.mapoff ≤ r ∧ r < w.mapoff + w.maplen ∧ w.mapoff + w.maplen ≤ size

instance (w : Window) (r size : Nat) : Decidable (w.Covers r size) :=
  inferInstanceAs (Decidable (_ ∧ _ ∧ _))

/-- The part of `struct mapinfo` that `rlines` reads: whether `map.start` holds a
mapping, and the file offset and length of the mapped window. -/
structure MapInfo where
  /-- `map.start != NULL`. -/
  start : Bool
  /-- `map.mapoff`. -/
  mapoff : Nat
  /-- `map.maplen`. -/
  maplen : Nat
  deriving DecidableEq, Repr

/-- The map after a successful `maparound` that returned window `w`. -/
def MapInfo.ofWindow (w : Window) : MapInfo :=
  { start := true, mapoff := w.mapoff, maplen := w.maplen }

@[simp] theorem MapInfo.ofWindow_start (w : Window) : (MapInfo.ofWindow w).start = true := rfl
@[simp] theorem MapInfo.ofWindow_mapoff (w : Window) : (MapInfo.ofWindow w).mapoff = w.mapoff := rfl
@[simp] theorem MapInfo.ofWindow_maplen (w : Window) : (MapInfo.ofWindow w).maplen = w.maplen := rfl

/-- `map.start[i]` over the file content `s`: the byte at index `i` of the mapped
window, `none` for an access outside it. -/
def MapInfo.byteAt (map : MapInfo) (s : List Byte) (i : Nat) : Option Byte :=
  if map.start ∧ i < map.maplen then s[map.mapoff + i]? else none

theorem MapInfo.byteAt_eq {map : MapInfo} {s : List Byte} {i : Nat}
    (mapped : map.start = true) (inWindow : i < map.maplen)
    (inFile : map.mapoff + map.maplen ≤ s.length) :
    map.byteAt s i = some (s.getD (map.mapoff + i) 0) := by
  have : map.mapoff + i < s.length := by omega
  simp [MapInfo.byteAt, mapped, inWindow, List.getD_eq_getElem?_getD, this]

/-! ## The plain backward scan -/

/-- The plain backward scan: examine the bytes at `lo + k - 1`, …, `lo` of `s`
with the test `s[p] == '\n' && --off == 0`.  The result is `(some j, 0)` when the
test breaks at `lo + j`, and `(none, off)` with the count left otherwise. -/
def scanDown (s : List Byte) (lo : Nat) : Nat → Nat → Option Nat × Nat
  | 0, off => (none, off)
  | k + 1, off =>
    match examine (s.getD (lo + k) 0) off with
    | none => (some k, 0)
    | some off => scanDown s lo k off

/-- Scanning `m + k` bytes down to `lo` is scanning the top `k` of them, down to
`lo + m`, and then, if that did not break, the bottom `m`. -/
theorem scanDown_add (s : List Byte) (lo m : Nat) :
    ∀ k off, scanDown s lo (m + k) off =
      match scanDown s (lo + m) k off with
      | (some j, c) => (some (m + j), c)
      | (none, c) => scanDown s lo m c
  | 0, off => rfl
  | k + 1, off => by
    rw [← Nat.add_assoc, scanDown, scanDown, Nat.add_assoc lo m k]
    cases examine (s.getD (lo + (m + k)) 0) off with
    | none => rfl
    | some c => exact scanDown_add s lo m k c

/-- Where the display of the last `n` lines of `s` starts: just after the `n`-th
newline counted backward from position `|s| - 2` (the final byte is never
counted), `0` when there are fewer such newlines, and the end of `s` for `n = 0`. -/
def lastLinesStart (s : List Byte) (n : Nat) : Nat :=
  if n = 0 then s.length
  else
    match scanDown s 0 (s.length - 1) n with
    | (some j, _) => j + 1
    | (none, _) => 0

/-! ## The windowed scan of `rlines` -/

/-- The inner loop of `rlines`,
`for (i = curoff - map.mapoff; i >= 0; i--)
   if (map.start[i] == '\n' && --off == 0) break;`,
entered at index `i`: `some (some j, 0)` when it breaks at index `j`,
`some (none, off)` when `i` runs below zero, `none` on an access outside the
mapped window. -/
def scanWindow (map : MapInfo) (s : List Byte) : Nat → Nat → Option (Option Nat × Nat)
  | 0, off =>
    (map.byteAt s 0).bind fun b =>
      match examine b off with
      | none => some (some 0, 0)
      | some off => some (none, off)
  | i + 1, off =>
    (map.byteAt s (i + 1)).bind fun b =>
      match examine b off with
      | none => some (some (i + 1), 0)
      | some off => scanWindow map s i off

/-- Inside a window that lies in the file, the inner loop is the plain scan of
the window's bytes from index `i` down. -/
theorem scanWindow_eq_scanDown {map : MapInfo} {s : List Byte}
    (mapped : map.start = true) (inFile : map.mapoff + map.maplen ≤ s.length) :
    ∀ i off, i < map.maplen →
      scanWindow map s i off = some (scanDown s map.mapoff (i + 1) off)
  | 0, off, inWindow => by
    rw [scanWindow, MapInfo.byteAt_eq mapped inWindow inFile, Option.some_bind, scanDown]
    cases examine (s.getD (map.mapoff + 0) 0) off <;> rfl
  | i + 1, off, inWindow => by
    rw [scanWindow, MapInfo.byteAt_eq mapped inWindow inFile, Option.some_bind, scanDown]
    cases examine (s.getD (map.mapoff + (i + 1)) 0) off with
    | none => rfl
    | some c => exact scanWindow_eq_scanDown mapped inFile i c (by omega)

/-- How the `while (curoff >= 0)` loop of `rlines` ends. -/
inductive ScanEnd
  /-- The loop ended with `curoff` (before `curoff++`) and this map. -/
  | done (curoff : Int) (map : MapInfo)
  /-- `maparound` failed: `rlines` reports the error and returns. -/
  | mapFailed (map : MapInfo)
  /-- `map.start[i]` was read outside the mapped window. -/
  | badRead
  /-- The loop did not end within the given number of rounds. -/
  | outOfFuel
  deriving DecidableEq, Repr

/-- The outer loop of `rlines`:
```
while (curoff >= 0) {
    if (curoff < map.mapoff && maparound(&map, curoff) != 0) { ierr(fn); return; }
    for (i = curoff - map.mapoff; i >= 0; i--) ...
    curoff = map.mapoff + i;
    if (i >= 0) break;
}
```
`maparound` answers a request for an offset with a window, or `none` on failure;
`fuel` bounds the number of rounds. -/
def scanLoop (maparound : Nat → Option Window) (s : List Byte) :
    Nat → Int → Nat → MapInfo → ScanEnd
  | 0, _, _, _ => .outOfFuel
  | fuel + 1, curoff, off, map =>
    if curoff < 0 then .done curoff map
    else
      match (if curoff < map.mapoff then (maparound curoff.toNat).map MapInfo.ofWindow
             else some map) with
      | none => .mapFailed map
      | some map =>
        match (if (map.mapoff : Int) ≤ curoff
               then scanWindow map s (curoff.toNat - map.mapoff) off
               else some (none, off)) with
        | none => .badRead
        | some (some i, _) => .done (map.mapoff + i) map
        | some (none, off) => scanLoop maparound s fuel (map.mapoff - 1) off map

/-- Every window `maparound` returns for an offset below `size` covers it. -/
def Contract (maparound : Nat → Option Window) (size : Nat) : Prop :=
  ∀ r < size, ∀ w, maparound r = some w → w.Covers r size

/-- The start position the plain scan of the first `k` bytes of `s` gives. -/
def plainStart (s : List Byte) (k off : Nat) : Nat :=
  match scanDown s 0 k off with
  | (some j, _) => j + 1
  | (none, _) => 0

theorem lastLinesStart_eq_plainStart {s : List Byte} {n : Nat} (positive : n ≠ 0) :
    lastLinesStart s n = plainStart s (s.length - 1) n := by
  simp only [lastLinesStart, positive, if_false]
  rfl

/-- One window of the scan: a window covering `curoff` turns the plain scan of
the bytes up to `curoff` into the scan of the window's part of them followed by
the scan of what lies below the window. -/
theorem plainStart_window (s : List Byte) (w : Window) (curoff off : Nat)
    (below : w.mapoff ≤ curoff) :
    plainStart s (curoff + 1) off =
      match scanDown s w.mapoff (curoff - w.mapoff + 1) off with
      | (some j, _) => w.mapoff + j + 1
      | (none, c) => plainStart s w.mapoff c := by
  have split := scanDown_add s 0 w.mapoff (curoff - w.mapoff + 1) off
  rw [show w.mapoff + (curoff - w.mapoff + 1) = curoff + 1 by omega,
    Nat.zero_add] at split
  unfold plainStart
  rw [split]
  rcases scanDown s w.mapoff (curoff - w.mapoff + 1) off with ⟨_ | j, c⟩ <;> rfl

/-- The scan loop, entered with `curoff` below the current window (so that it
remaps first) and enough fuel, ends where the plain scan of the bytes at
`curoff` and below ends, whatever windows `maparound` returns within its
contract. -/
theorem scanLoop_done {maparound : Nat → Option Window} {s : List Byte}
    (contract : Contract maparound s.length)
    (total : ∀ r < s.length, (maparound r).isSome) :
    ∀ (fuel : Nat) (curoff : Int) (off : Nat) (map : MapInfo), -1 ≤ curoff →
      curoff < s.length → curoff < map.mapoff → curoff + 1 < fuel →
      ∃ map', scanLoop maparound s fuel curoff off map =
        .done (plainStart s (curoff + 1).toNat off - 1) map'
  | 0, _, _, _, _, _, _, enough => by omega
  | fuel + 1, curoff, off, map, lower, upper, remap, enough => by
    rw [scanLoop]
    by_cases negative : curoff < 0
    · have : curoff = -1 := by omega
      subst this
      exact ⟨map, by simp [plainStart, scanDown]⟩
    · obtain ⟨w, hw⟩ := Option.isSome_iff_exists.mp (total curoff.toNat (by omega))
      obtain ⟨below, inside, inFile⟩ := contract _ (by omega) w hw
      have scan := @scanWindow_eq_scanDown (MapInfo.ofWindow w) s rfl inFile
        (curoff.toNat - w.mapoff) off (by simp; omega)
      have window := plainStart_window s w curoff.toNat off below
      rw [show (curoff + 1).toNat = curoff.toNat + 1 by omega]
      simp only [negative, if_false, remap, if_true, hw, Option.map_some',
        MapInfo.ofWindow_mapoff, show (w.mapoff : Int) ≤ curoff by omega, scan]
      rcases found : scanDown s w.mapoff (curoff.toNat - w.mapoff + 1) off with ⟨_ | j, c⟩
      · obtain ⟨map', rest⟩ := scanLoop_done contract total fuel (w.mapoff - 1) c
          (MapInfo.ofWindow w) (by omega) (by omega) (by simp only [MapInfo.ofWindow_mapoff]; omega)
          (by omega)
        rw [show ((w.mapoff : Int) - 1 + 1).toNat = w.mapoff by omega] at rest
        rw [found] at window
        exact ⟨map', by rw [window]; exact rest⟩
      · rw [found] at window
        refine ⟨MapInfo.ofWindow w, ?_⟩
        rw [window]
        show ScanEnd.done _ _ = ScanEnd.done (((w.mapoff + j + 1 : Nat) : Int) - 1) _
        congr 1
        omega

/-! ## The scan within `maparound`'s contract -/

/-- The plain scan breaks only at one of the bytes it examines. -/
theorem scanDown_found_lt {s : List Byte} {lo : Nat} :
    ∀ {k off j c : Nat}, scanDown s lo k off = (some j, c) → j < k
  | 0, _, _, _, found => by simp [scanDown] at found
  | k + 1, off, j, c, found => by
    rw [scanDown] at found
    cases examined : examine (s.getD (lo + k) 0) off with
    | none =>
      rw [examined, Prod.mk.injEq, Option.some.injEq] at found
      omega
    | some off => rw [examined] at found; exact Nat.lt_succ_of_lt (scanDown_found_lt found)

/-- Where a round of the scan starts: `curoff` is at least `-1`, inside the file,
and below the current window, so that the round maps a new window before it
reads. -/
structure ScanInv (size : Nat) (curoff : Int) (map : MapInfo) : Prop where
  lower : -1 ≤ curoff
  upper : curoff < size
  remap : curoff < map.mapoff

/-- The ways the scan may end within `maparound`'s contract: with the range
`[curoff + 1, size)` that `mapprint` writes inside the file, or on a failing
`maparound`; never on a read outside the window, and never by running out of
rounds. -/
def ScanEnd.Sound (size : Nat) : ScanEnd → Prop
  | .done curoff _ => 0 ≤ curoff + 1 ∧ curoff + 1 ≤ size
  | .mapFailed _ => True
  | .badRead => False
  | .outOfFuel => False

section Contract

variable {maparound : Nat → Option Window} {s : List Byte}

/-- One round of the scan from a state meeting the invariant reads only inside
the window it maps, and either ends the loop soundly or goes on below that window:
to a state that meets the invariant with a smaller `curoff`. -/
theorem scanLoop_round (contract : Contract maparound s.length) {fuel : Nat} {curoff : Int}
    {off : Nat} {map : MapInfo} (inv : ScanInv s.length curoff map) :
    (scanLoop maparound s (fuel + 1) curoff off map).Sound s.length ∨
    ∃ curoff' off' map', curoff' < curoff ∧ ScanInv s.length curoff' map' ∧
      scanLoop maparound s (fuel + 1) curoff off map = scanLoop maparound s fuel curoff' off' map' := by
  have ⟨lower, upper, remap⟩ := inv
  rw [scanLoop]
  by_cases negative : curoff < 0
  · left
    simp only [negative, if_true, ScanEnd.Sound]
    omega
  cases mapped : maparound curoff.toNat with
  | none =>
    left
    simp only [negative, if_false, remap, if_true, mapped, Option.map_none']
    trivial
  | some w =>
    obtain ⟨below, inside, inFile⟩ := contract _ (by omega) w mapped
    have scan := @scanWindow_eq_scanDown (MapInfo.ofWindow w) s rfl inFile
      (curoff.toNat - w.mapoff) off (by simp only [MapInfo.ofWindow_maplen]; omega)
    simp only [negative, if_false, remap, if_true, mapped, Option.map_some',
      MapInfo.ofWindow_mapoff, show (w.mapoff : Int) ≤ curoff by omega, scan]
    rcases found : scanDown s w.mapoff (curoff.toNat - w.mapoff + 1) off with ⟨_ | j, c⟩
    · exact .inr ⟨w.mapoff - 1, c, MapInfo.ofWindow w, by omega,
        ⟨by omega, by omega, by simp only [MapInfo.ofWindow_mapoff]; omega⟩, rfl⟩
    · have := scanDown_found_lt found
      left
      simp only [ScanEnd.Sound]
      omega

/-- From a state meeting the invariant, with more rounds than `curoff + 1`, the
scan ends soundly. -/
theorem scanLoop_sound (contract : Contract maparound s.length) :
    ∀ (fuel : Nat) {curoff : Int} {off : Nat} {map : MapInfo}, ScanInv s.length curoff map →
      curoff + 1 < fuel → (scanLoop maparound s fuel curoff off map).Sound s.length
  | 0, _, _, _, inv, enough => by have := inv.lower; omega
  | fuel + 1, _, off, _, inv, enough => by
    rcases @scanLoop_round _ s contract fuel _ off _ inv with ended | ⟨_, _, _, smaller, next, step⟩
    · exact ended
    · rw [step]
      exact scanLoop_sound contract fuel next (by omega)

end Contract

end Tail
end Userland
