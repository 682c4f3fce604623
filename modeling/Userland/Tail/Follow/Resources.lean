import Userland.Tail.Follow.Poll
import Mathlib.Data.List.Nodup

/-!
# Streams are neither leaked nor closed twice

The resource invariant of `follow`: the open streams are exactly those the
entries hold (plus, inside the reopen step, the probe `ftmp`), no two entries
hold the same stream, `fclose` was never called twice on a stream, and every
entry's `st` is the status of the file its stream reads.  Each operation of the
poll loop keeps it, so it holds at the end of every poll of every run.
-/

namespace Userland
namespace Tail

/-! ## What `show` changes -/

theorem putByte_eq (hdr : Bool) (i : Nat) (b : Byte) (σ : Sys) :
    ∃ out last, putByte hdr i b σ = { σ with out := out, last := last } := by
  unfold putByte
  split <;> exact ⟨_, _, rfl⟩

/-- The loop of `show` writes standard output and `last` and nothing else. -/
theorem showLoop_eq (hdr : Bool) (fails : Nat → Bool) (i : Nat) :
    ∀ pos rest σ, ∃ out last,
      (showLoop hdr fails i pos rest σ).1 = { σ with out := out, last := last }
  | pos, [], σ => ⟨σ.out, σ.last, rfl⟩
  | pos, b :: rest, σ => by
    unfold showLoop
    split
    · exact ⟨σ.out, σ.last, rfl⟩
    · obtain ⟨out, last, put⟩ := putByte_eq hdr i b σ
      obtain ⟨out', last', loop⟩ := showLoop_eq hdr fails i (pos + 1) rest (putByte hdr i b σ)
      exact ⟨out', last', by rw [loop, put]⟩

/-- `show` either changes nothing, when the entry holds no stream; or moves the
offset of the stream entry `i` holds, writes output and clears the stream's
indicators, when its error indicator was clear; or writes, moves the offset and
then closes the stream, sets `fp` to `NULL` and reports the error. -/
theorem showFile_cases (cfg : Config) (w : World) (i : Nat) (σ : Sys) :
    showFile cfg w i σ = σ ∧ (∀ id, (σ.files i).fp = some id → σ.streams id = none) ∨
    ∃ id s out last stop, (σ.files i).fp = some id ∧ σ.streams id = some s ∧
      (showFile cfg w i σ =
        (({ σ with out := out, last := last } : Sys).setOffset id stop).setIndicators id false false ∧
          s.error = false ∨
       showFile cfg w i σ =
        (((({ σ with out := out, last := last } : Sys).setOffset id stop).fclose id).setFile i
          { σ.files i with fp := none }).ierr (σ.files i).file_name) := by
  rcases held : (σ.files i).fp with _ | id
  · exact .inl ⟨by simp [showFile, held], by simp⟩
  rcases stream : σ.streams id with _ | s
  · exact .inl ⟨by simp [showFile, held, stream], by simp [stream]⟩
  obtain ⟨out, last, loop⟩ : ∃ out last, (if s.eof then (σ, s.offset, false)
      else showLoop cfg.headers (w.readFails id) i s.offset ((w.content s.ident).drop s.offset)
        σ).1 = { σ with out := out, last := last } := by
    split
    · exact ⟨σ.out, σ.last, rfl⟩
    · exact showLoop_eq cfg.headers (w.readFails id) i s.offset _ σ
  rcases run : (if s.eof then (σ, s.offset, false)
      else showLoop cfg.headers (w.readFails id) i s.offset ((w.content s.ident).drop s.offset)
        σ) with ⟨σ', stop, err⟩
  rw [run] at loop
  subst loop
  refine .inr ⟨id, s, out, last, stop, rfl, stream, ?_⟩
  simp only [showFile, held, stream, run]
  split
  · exact .inr rfl
  · next clean =>
    simp only [Bool.or_eq_true, not_or, Bool.not_eq_true] at clean
    exact .inl ⟨rfl, clean.2⟩

/-! ## The invariant -/

namespace Sys

/-- The resource invariant over the first `n` entries, with the probe stream
`ftmp` open besides them while the reopen step holds one. -/
structure Resources (n : Nat) (probe : Option Nat) (σ : Sys) : Prop where
  /-- The open streams are the entries' streams and the probe. -/
  open_iff : ∀ id, σ.IsOpen id ↔ (∃ i < n, (σ.files i).fp = some id) ∨ probe = some id
  /-- No two entries hold the same stream. -/
  held_unique : ∀ i < n, ∀ j < n, ∀ id,
    (σ.files i).fp = some id → (σ.files j).fp = some id → i = j
  /-- No entry holds the probe. -/
  probe_unheld : ∀ id, probe = some id → ∀ i < n, (σ.files i).fp ≠ some id
  /-- `fclose` was called at most once on each stream. -/
  closes_nodup : σ.closes.Nodup
  /-- A stream `fclose` was called on exists and is closed. -/
  closed_of_closes : ∀ id ∈ σ.closes, ∃ s, σ.streams id = some s ∧ s.closedAt ≠ none
  /-- Ids from `nextId` on are unused. -/
  fresh : ∀ id, σ.nextId ≤ id → σ.streams id = none
  /-- Every entry's `st` is the status of the file its stream reads. -/
  st_ident : ∀ i < n, ∀ id, (σ.files i).fp = some id →
    ∃ s, σ.streams id = some s ∧ (σ.files i).st.ident = s.ident

variable {n : Nat} {probe : Option Nat} {σ : Sys}

theorem Resources.not_isOpen_of_mem_closes (inv : σ.Resources n probe) {id : Nat}
    (mem : id ∈ σ.closes) : ¬ σ.IsOpen id := by
  rintro ⟨s, stream, isOpen⟩
  obtain ⟨s', stream', closed⟩ := inv.closed_of_closes id mem
  rw [stream] at stream'
  cases stream'
  exact closed isOpen

/-- The invariant reads only the entries, the streams, `nextId` and `closes`. -/
theorem Resources.congr {σ' : Sys} (inv : σ.Resources n probe) (files : σ'.files = σ.files)
    (streams : σ'.streams = σ.streams) (nextId : σ'.nextId = σ.nextId)
    (closes : σ'.closes = σ.closes) : σ'.Resources n probe := by
  have isOpen : ∀ id, σ'.IsOpen id ↔ σ.IsOpen id := by simp [IsOpen, streams]
  exact ⟨by simpa [isOpen, files] using inv.open_iff, by simpa [files] using inv.held_unique,
    by simpa [files] using inv.probe_unheld, closes ▸ inv.closes_nodup,
    by simpa [streams, closes] using inv.closed_of_closes,
    by simpa [nextId, streams] using inv.fresh, by simpa [files, streams] using inv.st_ident⟩

theorem Resources.output (inv : σ.Resources n probe) (out : List Out) (last : Option Nat) :
    ({ σ with out := out, last := last } : Sys).Resources n probe :=
  inv.congr rfl rfl rfl rfl

theorem Resources.ierr (inv : σ.Resources n probe) (name : String) :
    (σ.ierr name).Resources n probe :=
  inv.congr rfl rfl rfl rfl

@[simp] theorem isOpen_setFile (i : Nat) (f : FileInfo) (id : Nat) :
    (σ.setFile i f).IsOpen id ↔ σ.IsOpen id := Iff.rfl

/-- Changing one stream's record through `f` keeps every other record, and that
record keeps its file when `f` does. -/
theorem streams_update_map (f : Stream → Stream) (id other : Nat) :
    Function.update σ.streams id ((σ.streams id).map f) other =
      (σ.streams other).map (if other = id then f else fun s => s) := by
  by_cases same : other = id
  · subst same; simp
  · simp [Function.update_noteq same, same]

/-- Changing one stream's record in a way that keeps its file and whether it is
closed keeps the invariant. -/
theorem Resources.updateStream (inv : σ.Resources n probe) {σ' : Sys} {f : Stream → Stream}
    {id : Nat} (streams : σ'.streams = Function.update σ.streams id ((σ.streams id).map f))
    (keeps : ∀ s, (f s).ident = s.ident ∧ (f s).closedAt = s.closedAt)
    (files : σ'.files = σ.files) (nextId : σ'.nextId = σ.nextId) (closes : σ'.closes = σ.closes) :
    σ'.Resources n probe := by
  have isOpen : ∀ other, σ'.IsOpen other ↔ σ.IsOpen other := fun other => by
    unfold IsOpen
    rw [streams, streams_update_map]
    rcases σ.streams other with _ | s <;> split <;> simp [fun s => (keeps s).2]
  refine ⟨fun other => by rw [isOpen, files]; exact inv.open_iff other, files ▸ inv.held_unique,
    files ▸ inv.probe_unheld, closes ▸ inv.closes_nodup, fun other mem => ?_,
    fun other above => ?_, fun i below other held => ?_⟩
  · obtain ⟨s, stream, closed⟩ := inv.closed_of_closes other (closes ▸ mem)
    rw [streams, streams_update_map, stream]
    split <;> exact ⟨_, rfl, by simpa [(keeps s).2] using closed⟩
  · rw [streams, streams_update_map, inv.fresh other (nextId ▸ above)]
    rfl
  · obtain ⟨s, stream, ident⟩ := inv.st_ident i below other (files ▸ held)
    rw [streams, streams_update_map, stream, files]
    split <;> exact ⟨_, rfl, by simpa [(keeps s).1] using ident⟩

theorem Resources.setOffset (inv : σ.Resources n probe) (id pos : Nat) :
    (σ.setOffset id pos).Resources n probe :=
  inv.updateStream rfl (fun _ => ⟨rfl, rfl⟩) rfl rfl rfl

theorem Resources.setIndicators (inv : σ.Resources n probe) (id : Nat) (eof error : Bool) :
    (σ.setIndicators id eof error).Resources n probe :=
  inv.updateStream rfl (fun _ => ⟨rfl, rfl⟩) rfl rfl rfl

theorem isOpen_fclose (id other : Nat) :
    (σ.fclose id).IsOpen other ↔ other ≠ id ∧ σ.IsOpen other := by
  unfold IsOpen
  rw [fclose_streams, streams_update_map]
  rcases σ.streams other with _ | s <;> split <;> simp_all

/-- Closing an open stream keeps `closes` free of repeats, with everything in it
existing and closed. -/
theorem Resources.closes_fclose (inv : σ.Resources n probe) {id : Nat} (isOpen : σ.IsOpen id) :
    (σ.fclose id).closes.Nodup ∧ ∀ other ∈ (σ.fclose id).closes,
      ∃ s, (σ.fclose id).streams other = some s ∧ s.closedAt ≠ none := by
  refine ⟨?_, fun other mem => ?_⟩
  · simp only [fclose_closes]
    exact inv.closes_nodup.append (List.nodup_singleton id)
      (List.disjoint_singleton.mpr fun mem => inv.not_isOpen_of_mem_closes mem isOpen)
  · rw [fclose_streams, streams_update_map]
    simp only [fclose_closes, List.mem_append, List.mem_singleton] at mem
    rcases mem with mem | rfl
    · obtain ⟨s, stream, closed⟩ := inv.closed_of_closes other mem
      rw [stream]
      split <;> simp [closed]
    · obtain ⟨s, stream, -⟩ := isOpen
      simp [stream]

theorem Resources.fresh_fclose (inv : σ.Resources n probe) (id : Nat) :
    ∀ other, (σ.fclose id).nextId ≤ other → (σ.fclose id).streams other = none := by
  intro other above
  rw [fclose_streams, streams_update_map, inv.fresh other above]
  rfl

theorem stream_fclose (id other : Nat) (s : Stream) (stream : σ.streams other = some s) :
    ∃ s', (σ.fclose id).streams other = some s' ∧ s'.ident = s.ident := by
  rw [fclose_streams, streams_update_map, stream]
  split <;> exact ⟨_, rfl, rfl⟩

/-- Closing the stream entry `i` holds and setting its `fp` to `NULL`. -/
theorem Resources.dropHeld (inv : σ.Resources n probe) {i id : Nat} (below : i < n)
    (held : (σ.files i).fp = some id) :
    ((σ.fclose id).setFile i { σ.files i with fp := none }).Resources n probe := by
  have isOpen : σ.IsOpen id := (inv.open_iff id).mpr (.inl ⟨i, below, held⟩)
  obtain ⟨nodup, closed⟩ := inv.closes_fclose isOpen
  have heldBy : ∀ j < n, (σ.files j).fp = some id → j = i :=
    fun j jBelow jHeld => inv.held_unique j jBelow i below id jHeld held
  refine ⟨fun other => ?_, fun j jBelow k kBelow other jHeld kHeld => ?_,
    fun other isProbe j jBelow => ?_, nodup, closed, fresh_fclose inv id,
    fun j jBelow other jHeld => ?_⟩
  · rw [isOpen_setFile, isOpen_fclose, inv.open_iff]
    constructor
    · rintro ⟨different, ⟨j, jBelow, jHeld⟩ | isProbe⟩
      · refine .inl ⟨j, jBelow, ?_⟩
        by_cases same : j = i
        · subst same; exact absurd (held.symm.trans jHeld) (by simpa using Ne.symm different)
        · simpa [Function.update_noteq same] using jHeld
      · exact .inr isProbe
    · rintro (⟨j, jBelow, jHeld⟩ | isProbe)
      · by_cases same : j = i
        · subst same; simp at jHeld
        · simp only [setFile_files, Function.update_noteq same] at jHeld
          exact ⟨fun equal => same (heldBy j jBelow (equal ▸ jHeld)), .inl ⟨j, jBelow, jHeld⟩⟩
      · exact ⟨fun equal => inv.probe_unheld id (equal ▸ isProbe) i below held, .inr isProbe⟩
  · by_cases jSame : j = i
    · subst jSame; simp at jHeld
    by_cases kSame : k = i
    · subst kSame; simp at kHeld
    simp only [setFile_files, Function.update_noteq jSame, Function.update_noteq kSame] at jHeld kHeld
    exact inv.held_unique j jBelow k kBelow other jHeld kHeld
  · by_cases same : j = i
    · subst same; simp
    · simpa [Function.update_noteq same] using inv.probe_unheld other isProbe j jBelow
  · by_cases same : j = i
    · subst same; simp at jHeld
    · simp only [setFile_files, Function.update_noteq same, setFile_streams] at jHeld ⊢
      obtain ⟨s, stream, ident⟩ := inv.st_ident j jBelow other jHeld
      obtain ⟨s', stream', ident'⟩ := stream_fclose id other s stream
      exact ⟨s', stream', ident.trans ident'.symm⟩

/-- No entry holds a stream id that is not in use. -/
theorem Resources.unheld_of_fresh (inv : σ.Resources n probe) {id : Nat}
    (unused : σ.streams id = none) : ∀ i < n, (σ.files i).fp ≠ some id := by
  intro i below held
  obtain ⟨s, stream, -⟩ := inv.st_ident i below id held
  rw [unused] at stream
  cases stream

/-- `fileargs_fopen` without a probe: the new stream is `nextId`, it becomes the
probe, and it reads the file the path names from offset `0`. -/
theorem Resources.fopen (inv : σ.Resources n none) {w : World} {i id : Nat} {σ' : Sys}
    (opened : σ.fopen w i = some (id, σ')) :
    σ'.Resources n (some id) ∧ σ'.files = σ.files ∧ σ'.closes = σ.closes ∧
      ∃ x, w.lookup (σ.files i).file_name = some x ∧
        σ'.streams id = some ⟨x, lowestFree σ.fds, 0, false, false, none⟩ := by
  unfold Sys.fopen at opened
  split at opened
  · cases opened
  obtain ⟨x, named, made⟩ := Option.map_eq_some'.mp opened
  cases made
  have unused := inv.fresh σ.nextId le_rfl
  have unheld := inv.unheld_of_fresh unused
  refine ⟨⟨fun other => ?_, inv.held_unique, ?_, inv.closes_nodup, fun other mem => ?_,
    fun other above => ?_, fun j below other held => ?_⟩, rfl, rfl, x, named, by simp⟩
  · by_cases same : other = σ.nextId
    · subst same
      simp [IsOpen]
    · simp only [IsOpen, Function.update_noteq same, Option.some.injEq]
      rw [← IsOpen, inv.open_iff other]
      simp [Ne.symm same]
  · rintro other ⟨⟩ j below
    exact unheld j below
  · obtain ⟨s, stream, closed⟩ := inv.closed_of_closes other mem
    have : other ≠ σ.nextId := fun same => by rw [same, unused] at stream; cases stream
    exact ⟨s, by simp [Function.update_noteq this, stream], closed⟩
  · simp only at above ⊢
    rw [Function.update_noteq (by omega), inv.fresh other (by omega)]
  · obtain ⟨s, stream, ident⟩ := inv.st_ident j below other held
    have : other ≠ σ.nextId := fun same => unheld j below (same ▸ held)
    exact ⟨s, by simp [Function.update_noteq this, stream], ident⟩

/-- Closing the probe. -/
theorem Resources.fcloseProbe {id : Nat} (inv : σ.Resources n (some id)) :
    (σ.fclose id).Resources n none := by
  have isOpen : σ.IsOpen id := (inv.open_iff id).mpr (.inr rfl)
  obtain ⟨nodup, closed⟩ := inv.closes_fclose isOpen
  refine ⟨fun other => ?_, inv.held_unique, by simp, nodup, closed, inv.fresh_fclose id,
    fun j below other held => ?_⟩
  · rw [isOpen_fclose, inv.open_iff]
    constructor
    · rintro ⟨different, held | probe⟩
      · exact .inl held
      · cases probe; exact absurd rfl different
    · rintro (⟨j, below, held⟩ | impossible)
      · exact ⟨fun same => inv.probe_unheld id rfl j below (same ▸ held), .inl ⟨j, below, held⟩⟩
      · cases impossible
  · obtain ⟨s, stream, ident⟩ := inv.st_ident j below other held
    obtain ⟨s', stream', ident'⟩ := stream_fclose id other s stream
    exact ⟨s', stream', ident.trans ident'.symm⟩

/-- An entry without a stream adopts the probe, with the status of the probe's
file. -/
theorem Resources.adopt {id i start : Nat} {st : Stat} (inv : σ.Resources n (some id))
    (below : i < n) (empty : (σ.files i).fp = none)
    (status : ∃ s, σ.streams id = some s ∧ st.ident = s.ident) :
    (σ.adopt i id start st).Resources n none := by
  have unheld := inv.probe_unheld id rfl
  refine ⟨fun other => ?_, fun j jBelow k kBelow other jHeld kHeld => ?_, by simp,
    inv.closes_nodup, inv.closed_of_closes, inv.fresh, fun j jBelow other held => ?_⟩
  · simp only [adopt_files, adopt_streams, IsOpen]
    rw [← IsOpen, inv.open_iff other]
    constructor
    · rintro (⟨j, jBelow, held⟩ | probe)
      · by_cases same : j = i
        · subst same; rw [empty] at held; cases held
        · exact .inl ⟨j, jBelow, by simpa [Function.update_noteq same] using held⟩
      · cases probe; exact .inl ⟨i, below, by simp⟩
    · rintro (⟨j, jBelow, held⟩ | impossible)
      · by_cases same : j = i
        · subst same; simp at held; exact .inr (by rw [held])
        · exact .inl ⟨j, jBelow, by simpa [Function.update_noteq same] using held⟩
      · cases impossible
  · simp only [adopt_files] at jHeld kHeld
    by_cases jSame : j = i <;> by_cases kSame : k = i
    · rw [jSame, kSame]
    · subst jSame
      simp only [Function.update_same, Function.update_noteq kSame] at jHeld kHeld
      cases jHeld; exact absurd kHeld (unheld k kBelow)
    · subst kSame
      simp only [Function.update_same, Function.update_noteq jSame] at jHeld kHeld
      cases kHeld; exact absurd jHeld (unheld j jBelow)
    · simp only [Function.update_noteq jSame, Function.update_noteq kSame] at jHeld kHeld
      exact inv.held_unique j jBelow k kBelow other jHeld kHeld
  · simp only [adopt_files, adopt_streams] at held ⊢
    by_cases same : j = i
    · subst same
      simp only [Function.update_same, Option.some.injEq] at held ⊢
      exact held ▸ status
    · simp only [Function.update_noteq same] at held ⊢
      exact inv.st_ident j jBelow other held

/-- `show` keeps the invariant. -/
theorem Resources.showFile (inv : σ.Resources n probe) (cfg : Config) (w : World) {i : Nat}
    (below : i < n) : (Tail.showFile cfg w i σ).Resources n probe := by
  rcases showFile_cases cfg w i σ with ⟨same, -⟩ | ⟨id, s, out, last, stop, held, -, ⟨kept, -⟩ | dropped⟩
  · rw [same]; exact inv
  · rw [kept]; exact ((inv.output out last).setOffset id stop).setIndicators id false false
  · rw [dropped]
    exact (((inv.output out last).setOffset id stop).dropHeld below held).ierr _

theorem Resources.showIfOpen (inv : σ.Resources n probe) (cfg : Config) (w : World) {i : Nat}
    (below : i < n) : (Tail.showIfOpen cfg w i σ).Resources n probe := by
  unfold Tail.showIfOpen
  split
  · exact inv.showFile cfg w below
  · exact inv

/-- `if (file->fp != NULL) { fclose(file->fp); file->fp = NULL; }` keeps the
invariant. -/
theorem Resources.dropStream (inv : σ.Resources n probe) {i : Nat} (below : i < n) :
    (σ.dropStream i).Resources n probe := by
  unfold Sys.dropStream
  split
  · exact inv
  · exact inv.dropHeld below ‹_›

/-- Stream `id` exists and reads the file object `x`. -/
def Reads (σ : Sys) (id : Nat) (x : Ident) : Prop :=
  ∃ s, σ.streams id = some s ∧ s.ident = x

theorem reads_update_map {f : Stream → Stream} (keeps : ∀ s, (f s).ident = s.ident)
    {id other : Nat} {x : Ident} (reads : σ.Reads other x) :
    ∃ s, Function.update σ.streams id ((σ.streams id).map f) other = some s ∧ s.ident = x := by
  obtain ⟨s, stream, ident⟩ := reads
  rw [streams_update_map, stream]
  split
  · exact ⟨_, rfl, (keeps s).trans ident⟩
  · exact ⟨_, rfl, ident⟩

theorem Reads.setOffset {other : Nat} {x : Ident} (reads : σ.Reads other x) (id pos : Nat) :
    (σ.setOffset id pos).Reads other x := by
  unfold Reads
  rw [setOffset_streams]
  exact reads_update_map (fun _ => by rfl) reads

theorem Reads.setIndicators {other : Nat} {x : Ident} (reads : σ.Reads other x)
    (id : Nat) (eof error : Bool) : (σ.setIndicators id eof error).Reads other x := by
  unfold Reads
  rw [setIndicators_streams]
  exact reads_update_map (fun _ => by rfl) reads

theorem Reads.fclose {other : Nat} {x : Ident} (reads : σ.Reads other x) (id : Nat) :
    (σ.fclose id).Reads other x := by
  unfold Reads
  rw [fclose_streams]
  exact reads_update_map (fun _ => by rfl) reads

/-- `show` moves offsets, clears indicators and closes streams but never changes
what a stream reads. -/
theorem Reads.showFile {id : Nat} {x : Ident} (reads : σ.Reads id x) (cfg : Config) (w : World)
    (i : Nat) : (Tail.showFile cfg w i σ).Reads id x := by
  rcases showFile_cases cfg w i σ with ⟨same, -⟩ | ⟨held, s, out, last, stop, -, -, ⟨kept, -⟩ | dropped⟩
  · rwa [same]
  · rw [kept]
    exact ((show Reads { σ with out := out, last := last } _ _ from reads).setOffset held
      stop).setIndicators held false false
  · rw [dropped]
    exact ((show Reads { σ with out := out, last := last } _ _ from reads).setOffset held stop).fclose
      held

theorem Reads.dropStream {id : Nat} {x : Ident} (reads : σ.Reads id x) (i : Nat) :
    (σ.dropStream i).Reads id x := by
  unfold Sys.dropStream
  split
  · exact reads
  · exact reads.fclose _

theorem dropStream_fp (i : Nat) : ((σ.dropStream i).files i).fp = none := by
  unfold Sys.dropStream
  split <;> simp_all

theorem fstat_eq {w : World} {i id : Nat} {st : Stat} (stat : σ.fstat w i id = some st) :
    ∃ s, σ.streams id = some s ∧ st = w.stat s.ident := by
  unfold Sys.fstat at stat
  split at stat
  · cases stat
  · obtain ⟨s, stream, rfl⟩ := Option.map_eq_some'.mp stat
    exact ⟨s, stream, rfl⟩

/-- The reopen step keeps the invariant: the probe `ftmp` is adopted or closed on
every branch, and a stream that is dropped or replaced is closed. -/
theorem Resources.reopen (inv : σ.Resources n none) (cfg : Config) (w : World) {i : Nat}
    (below : i < n) : (Tail.reopen cfg w i σ).Resources n none := by
  unfold Tail.reopen
  rcases held : (σ.files i).fp with _ | fp <;> dsimp only
  · rcases opened : σ.fopen w i with _ | ⟨id, σ'⟩ <;> dsimp only
    · exact inv
    obtain ⟨inv', files, -, x, -, stream⟩ := inv.fopen opened
    rcases stat : σ'.fstat w i id with _ | st <;> dsimp only
    · exact inv'.fcloseProbe
    obtain ⟨s, stream', rfl⟩ := fstat_eq stat
    exact inv'.adopt below (files ▸ held) ⟨s, stream', rfl⟩
  · split
    · exact inv
    rcases opened : σ.fopen w i with _ | ⟨ftmp, σ'⟩ <;> dsimp only
    · have reported : (if w.openFails i then σ.ierr (σ.files i).file_name else σ).Resources n none :=
        by split <;> [exact inv.ierr _; exact inv]
      exact (reported.showFile cfg w below).dropStream below
    obtain ⟨inv', files, -, x, -, stream⟩ := inv.fopen opened
    rcases stat : σ'.fstat w i ftmp with _ | sb2 <;> dsimp only
    · exact (((inv'.ierr _).showFile cfg w below).dropStream below).fcloseProbe
    obtain ⟨s, stream', rfl⟩ := fstat_eq stat
    split
    · have reads : σ'.Reads ftmp s.ident := ⟨s, stream', rfl⟩
      obtain ⟨s', stream'', ident⟩ := (reads.showFile cfg w i).dropStream i
      exact ((inv'.showFile cfg w below).dropStream below).adopt below (dropStream_fp i)
        ⟨s', stream'', ident.symm⟩
    · exact inv'.fcloseProbe

/-- The `for` loops of a poll keep any property each of their steps keeps. -/
theorem forEach_induction {α : Type} {P : α → Prop} {body : Nat → α → α} {n : Nat}
    (step : ∀ i < n, ∀ a, P a → P (body i a)) : ∀ m ≤ n, ∀ a, P a → P (forEach body m a)
  | 0, _, _, holds => holds
  | m + 1, within, a, holds =>
    step m (by omega) _ (forEach_induction step m (by omega) a holds)

theorem Resources.pollOnce (inv : σ.Resources cfg.no_files none) (w : World) :
    (Tail.pollOnce cfg w σ).Resources cfg.no_files none := by
  unfold Tail.pollOnce
  have reopened : (if cfg.Fflag then forEach (Tail.reopen cfg w) cfg.no_files σ else σ).Resources
      cfg.no_files none := by
    split
    · exact forEach_induction (fun i below _ inv => inv.reopen cfg w below) _ le_rfl σ inv
    · exact inv
  exact (forEach_induction (fun i below _ inv => inv.showIfOpen cfg w below) _ le_rfl _
    reopened).congr rfl rfl rfl rfl

theorem Resources.polls (inv : σ.Resources cfg.no_files none) :
    ∀ ws, (Tail.polls cfg ws σ).Resources cfg.no_files none := by
  intro ws
  induction ws generalizing σ with
  | nil => exact inv
  | cons w ws step => exact step (inv.pollOnce w)

theorem Resources.absent (name : Nat → String) : (Sys.absent name).Resources n none :=
  ⟨by simp [IsOpen, Sys.absent], by simp [Sys.absent], by simp, List.nodup_nil, by simp [Sys.absent],
    fun _ _ => rfl, by simp [Sys.absent]⟩

theorem Resources.positionFile (inv : σ.Resources cfg.no_files none) {style : Style}
    {off : Nat} {io : Nat → Io} {w : World} {i : Nat} {σ' : Sys}
    (positioned : Tail.positionFile cfg style off io w i σ = some σ') :
    σ'.Resources cfg.no_files none := by
  unfold Tail.positionFile at positioned
  split at positioned
  · cases positioned; exact inv
  split at positioned
  · cases positioned; exact inv
  have header : (if cfg.headers then { σ with out := σ.out ++ [.header i] } else σ).Resources
      cfg.no_files none := by
    split <;> [exact inv.congr rfl rfl rfl rfl; exact inv]
  obtain ⟨e, -, kept⟩ := Option.bind_eq_some.mp positioned
  split at kept
  · cases kept
  · cases kept
    exact ((header.setOffset _ _).setIndicators _ _ _).congr rfl rfl rfl rfl

theorem Resources.positionAll (inv : σ.Resources cfg.no_files none) {style : Style}
    {off : Nat} {io : Nat → Io} {w : World} :
    ∀ m σ', Tail.positionAll cfg style off io w m σ = some σ' → σ'.Resources cfg.no_files none
  | 0, σ', positioned => by cases positioned; exact inv
  | m + 1, σ', positioned => by
    obtain ⟨σ'', before, last⟩ := Option.bind_eq_some.mp positioned
    exact (inv.positionAll m σ'' before).positionFile last

end Sys

/-- In every run of `follow`, whatever `fileargs_fopen`, `fstat` and `getc` do
in each poll, the resource invariant holds at the end of the run (and so at the
end of every poll, each being the end of a shorter run): the open streams are
exactly those the entries hold, no two entries hold the same stream, no stream
was closed twice, and each entry's `st` names the file its stream reads. -/
theorem follow_keeps_resources (cfg : Config) (style : Style) (off : Nat) (io : Nat → Io)
    (w : World) (ws : List World) (σ₀ σ : Sys) (main : σ₀.Resources cfg.no_files none)
    (ran : follow cfg style off io w ws σ₀ = some σ) : σ.Resources cfg.no_files none := by
  obtain ⟨σ₁, positioned, rfl⟩ := Option.map_eq_some'.mp ran
  have inv := main.positionAll cfg.no_files σ₁ positioned
  split
  · exact inv
  · exact Sys.Resources.polls
      (show Sys.Resources _ _ { σ₁ with last := some (cfg.no_files - 1) } from
        inv.congr rfl rfl rfl rfl) ws

/-- A file that is missing at the start and then appears is reopened with the
invariant intact. -/
theorem follow_keeps_resources_on_reopen :
    ∃ σ, follow ⟨1, true, false, false⟩ .rlines 10 (fun _ => Io.reliable fun _ => ⟨0, 0⟩)
        (World.single "a" ⟨1, 1⟩ []) [World.single "a" ⟨1, 1⟩ [120]] (Sys.absent fun _ => "a") =
        some σ ∧ σ.Resources 1 none :=
  ⟨_, rfl, follow_keeps_resources ⟨1, true, false, false⟩ .rlines 10
    (fun _ => Io.reliable fun _ => ⟨0, 0⟩) (World.single "a" ⟨1, 1⟩ [])
    [World.single "a" ⟨1, 1⟩ [120]] _ _ (Sys.Resources.absent _) rfl⟩

end Tail
end Userland
