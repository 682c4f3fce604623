import Userland.Tail.Follow.Resources

/-!
# What one step of the poll loop does

One specification lemma for each operation the poll loop is made of: `show`
(whether or not a read fails), `fileargs_fopen`, `fclose`, moving an offset,
dropping an entry's stream, and the positioning of one entry.  The invariants
of the later modules are proved from these, never by unfolding the operations
again.  Output is tagged with the entry it belongs to; `emitted i` reads back
the bytes written for entry `i`.
-/

namespace Userland
namespace Tail

/-- The entry an item of output belongs to. -/
def Out.entry : Out → Nat
  | .header i => i
  | .byte i _ => i

@[simp] theorem Out.entry_header (i : Nat) : (Out.header i).entry = i := rfl

@[simp] theorem Out.entry_byte (i : Nat) (b : Byte) : (Out.byte i b).entry = i := rfl

/-- The bytes written for entry `i`, headers left out. -/
def emitted (i : Nat) (out : List Out) : List Byte :=
  out.filterMap fun
    | .byte j b => if j = i then some b else none
    | .header _ => none

@[simp] theorem emitted_nil (i : Nat) : emitted i [] = [] := rfl

@[simp] theorem emitted_append (i : Nat) (out more : List Out) :
    emitted i (out ++ more) = emitted i out ++ emitted i more :=
  List.filterMap_append _ _ _

@[simp] theorem emitted_header (i j : Nat) : emitted i [.header j] = [] := rfl

@[simp] theorem emitted_byte (i j : Nat) (b : Byte) :
    emitted i [.byte j b] = if j = i then [b] else [] := by
  by_cases same : j = i <;> simp [emitted, same]

/-- Output that belongs to other entries writes no byte of `i`. -/
theorem emitted_of_entry_ne {i : Nat} {more : List Out} (other : ∀ o ∈ more, o.entry ≠ i) :
    emitted i more = [] := by
  induction more with
  | nil => rfl
  | cons o more ih =>
    rw [← List.singleton_append, emitted_append,
      ih fun o' mem => other o' (List.mem_cons_of_mem _ mem)]
    have := other o (List.mem_cons_self _ _)
    cases o <;> simp_all [Out.entry]

/-! ## `show` -/

theorem putByte_spec (hdr : Bool) (i : Nat) (b : Byte) (σ : Sys) :
    ∃ more last, putByte hdr i b σ = { σ with out := σ.out ++ more, last := last } ∧
      emitted i more = [b] ∧ ∀ o ∈ more, o.entry = i := by
  unfold putByte
  split
  · exact ⟨[.byte i b], σ.last, rfl, by simp, by simp [Out.entry]⟩
  · refine ⟨(if hdr then [.header i] else []) ++ [.byte i b], some i, ?_, ?_, ?_⟩
    · cases hdr <;> simp
    · rw [emitted_append]
      cases hdr <;> simp
    · cases hdr <;> simp [Out.entry]

/-- The loop of `show` from offset `pos` over the unread bytes `rest`: it reads up
to the first read that fails, or to the end, writes the bytes it read with their
headers, stops there, and says whether the read it stopped at failed. -/
theorem showLoop_spec (hdr : Bool) (fails : Nat → Bool) (i : Nat) :
    ∀ pos rest σ, ∃ more last stop, showLoop hdr fails i pos rest σ =
        ({ σ with out := σ.out ++ more, last := last }, stop, fails stop) ∧
      pos ≤ stop ∧ stop ≤ pos + rest.length ∧ (∀ q, pos ≤ q → q < stop → fails q = false) ∧
      (stop < pos + rest.length → fails stop = true) ∧
      emitted i more = rest.take (stop - pos) ∧ ∀ o ∈ more, o.entry = i
  | pos, [], σ => ⟨[], σ.last, pos, by simp [showLoop], le_rfl, by simp, fun _ _ _ => by omega,
      fun beyond => by simp at beyond, by simp, by simp⟩
  | pos, b :: rest, σ => by
    by_cases failed : fails pos
    · exact ⟨[], σ.last, pos, by simp [showLoop, failed], le_rfl, by simp, fun _ _ _ => by omega,
        fun _ => failed, by simp, by simp⟩
    obtain ⟨more, last, put, byte, mine⟩ := putByte_spec hdr i b σ
    obtain ⟨more', last', stop, loop, lo, hi, before, after, bytes, mine'⟩ :=
      showLoop_spec hdr fails i (pos + 1) rest (putByte hdr i b σ)
    refine ⟨more ++ more', last', stop, ?_, by omega, by simp only [List.length_cons]; omega,
      fun q qlo qhi => ?_, fun beyond => after (by simp only [List.length_cons] at beyond; omega),
      ?_, fun o mem => ?_⟩
    · rw [showLoop, if_neg failed, loop, put]
      simp only [List.append_assoc]
    · rcases Nat.eq_or_lt_of_le qlo with rfl | later
      · simpa using failed
      · exact before q later qhi
    · rw [emitted_append, byte, bytes, show stop - pos = stop - (pos + 1) + 1 by omega,
        List.take_succ_cons]
      rfl
    · rcases List.mem_append.mp mem with mem | mem
      · exact mine o mem
      · exact mine' o mem

/-- With reads that never fail, the loop of `show` reads to the end. -/
theorem showLoop_reliable (hdr : Bool) {fails : Nat → Bool} (i : Nat)
    (reliable : ∀ pos, fails pos = false) (pos : Nat) (rest : List Byte) (σ : Sys) :
    ∃ more last, showLoop hdr fails i pos rest σ =
      ({ σ with out := σ.out ++ more, last := last }, pos + rest.length, false) ∧
      emitted i more = rest ∧ ∀ o ∈ more, o.entry = i := by
  obtain ⟨more, last, stop, loop, -, hi, -, after, bytes, mine⟩ := showLoop_spec hdr fails i pos rest σ
  obtain rfl : stop = pos + rest.length := by
    by_contra short
    have := after (by omega)
    rw [reliable] at this
    cases this
  exact ⟨more, last, by rw [loop, reliable], by rw [bytes, Nat.add_sub_cancel_left, List.take_length],
    mine⟩

/-- What `getc` can still read from stream `s` in world `w`: nothing while its
end-of-file indicator is set, else the bytes of its file past its offset. -/
def Stream.unread (w : World) (s : Stream) : List Byte :=
  if s.eof then [] else (w.content s.ident).drop s.offset

/-- A stream after `show` has read what it could, when no read failed: its offset
moved past what it could still read, and its indicators cleared. -/
def Stream.shown (w : World) (s : Stream) : Stream :=
  { s with offset := s.offset + (s.unread w).length, eof := false, error := false }

@[simp] theorem Stream.shown_ident (w : World) (s : Stream) : (s.shown w).ident = s.ident := rfl

@[simp] theorem Stream.shown_closedAt (w : World) (s : Stream) :
    (s.shown w).closedAt = s.closedAt := rfl

@[simp] theorem Stream.shown_eof (w : World) (s : Stream) : (s.shown w).eof = false := rfl

@[simp] theorem Stream.shown_error (w : World) (s : Stream) : (s.shown w).error = false := rfl

/-- The offset `show` leaves: unmoved while the end-of-file indicator is set, else
the end of the file, or where it was if that is past the end. -/
theorem Stream.shown_offset (w : World) (s : Stream) :
    (s.shown w).offset =
      if s.eof then s.offset else max s.offset (w.content s.ident).length := by
  unfold Stream.shown Stream.unread
  split
  · simp
  · simp only [List.length_drop]
    omega

/-- `show` for an entry holding stream `id` with a clear error indicator, when no
read of it fails: it writes what the stream can still read, moves the offset past
it and clears the indicators. -/
theorem showFile_reliable (cfg : Config) {w : World} {i id : Nat} {s : Stream} {σ : Sys}
    (held : (σ.files i).fp = some id) (stream : σ.streams id = some s) (clean : s.error = false)
    (reliable : ∀ pos, w.readFails id pos = false) :
    ∃ more last, showFile cfg w i σ =
        (({ σ with out := σ.out ++ more, last := last } : Sys).setOffset id
          (s.offset + (s.unread w).length)).setIndicators id false false ∧
      emitted i more = s.unread w ∧ ∀ o ∈ more, o.entry = i := by
  cases atEof : s.eof
  · obtain ⟨more, last, loop, bytes, mine⟩ := showLoop_reliable cfg.headers i reliable s.offset
      ((w.content s.ident).drop s.offset) σ
    exact ⟨more, last, by simp [showFile, held, stream, loop, atEof, clean, Stream.unread],
      by simpa [Stream.unread, atEof] using bytes, mine⟩
  · exact ⟨[], σ.last, by simp [showFile, held, stream, atEof, clean, Stream.unread], by
      simp [Stream.unread, atEof], by simp⟩

/-- Whatever its reads do, `show` for entry `i` writes only output of entry `i`. -/
theorem showFile_writes (cfg : Config) (w : World) (i : Nat) (σ : Sys) :
    ∃ more, (showFile cfg w i σ).out = σ.out ++ more ∧ ∀ o ∈ more, o.entry = i := by
  rcases held : (σ.files i).fp with _ | id
  · exact ⟨[], by simp [showFile, held], by simp⟩
  rcases stream : σ.streams id with _ | s
  · exact ⟨[], by simp [showFile, held, stream], by simp⟩
  obtain ⟨more, last, stop, loop, -, -, -, -, -, mine⟩ :=
    showLoop_spec cfg.headers (w.readFails id) i s.offset ((w.content s.ident).drop s.offset) σ
  cases atEof : s.eof
  · refine ⟨more, ?_, mine⟩
    simp only [showFile, held, stream, atEof, loop, Bool.false_eq_true, if_false]
    split <;> rfl
  · refine ⟨[], ?_, by simp⟩
    simp only [showFile, held, stream, atEof, if_true]
    split <;> simp

/-- `show` when the first read of the held stream, whose end-of-file indicator is
clear, that fails is at `p`: it writes
the bytes before `p`, then closes the stream at offset `p`, sets `fp` to `NULL`
and reports the file. -/
theorem showFile_error (cfg : Config) {w : World} {i id : Nat} {s : Stream} {σ : Sys}
    (held : (σ.files i).fp = some id) (stream : σ.streams id = some s) (reading : s.eof = false)
    {p : Nat}
    (after : s.offset ≤ p) (within : p ≤ (w.content s.ident).length)
    (fails : w.readFails id p = true) (before : ∀ q, s.offset ≤ q → q < p → w.readFails id q = false) :
    ∃ more last, showFile cfg w i σ =
        (((({ σ with out := σ.out ++ more, last := last } : Sys).setOffset id p).fclose id).setFile i
          { σ.files i with fp := none }).ierr (σ.files i).file_name ∧
      emitted i more = ((w.content s.ident).drop s.offset).take (p - s.offset) ∧
      ∀ o ∈ more, o.entry = i := by
  obtain ⟨more, last, stop, loop, lo, hi, reads, stops, bytes, mine⟩ :=
    showLoop_spec cfg.headers (w.readFails id) i s.offset ((w.content s.ident).drop s.offset) σ
  simp only [List.length_drop] at hi stops
  obtain rfl : stop = p := by
    rcases Nat.lt_trichotomy stop p with short | rfl | long
    · have := stops (by omega)
      rw [before stop lo short] at this
      cases this
    · rfl
    · rw [reads p after long] at fails
      cases fails
  exact ⟨more, last, by simp [showFile, held, stream, reading, loop, fails], bytes, mine⟩

/-- The offset stream `id` had in `σ`, `0` for a stream not yet opened. -/
def offsetIn (σ : Sys) (id : Nat) : Nat :=
  ((σ.streams id).map Stream.offset).getD 0

/-- The end-of-file indicator of stream `id` in `σ`, clear for a stream not yet
opened. -/
def eofIn (σ : Sys) (id : Nat) : Bool :=
  ((σ.streams id).map Stream.eof).getD false

/-! ## Streams and entries -/

namespace Sys

/-- `fileargs_fopen` opens stream `nextId` at offset `0` and changes nothing but
the streams, `nextId` and the descriptors. -/
theorem fopen_spec {σ σ' : Sys} {w : World} {i id : Nat} (opened : σ.fopen w i = some (id, σ')) :
    ∃ x fd, id = σ.nextId ∧ σ' = { σ with
      streams := Function.update σ.streams σ.nextId (some ⟨x, fd, 0, false, false, none⟩)
      nextId := σ.nextId + 1
      fds := fd :: σ.fds } := by
  unfold Sys.fopen at opened
  split at opened
  · cases opened
  · obtain ⟨x, -, made⟩ := Option.map_eq_some'.mp opened
    cases made
    exact ⟨x, _, rfl, rfl⟩

theorem setOffset_streams_of {σ : Sys} {id : Nat} {s : Stream} (stream : σ.streams id = some s)
    (pos other : Nat) :
    (σ.setOffset id pos).streams other =
      if other = id then some { s with offset := pos } else σ.streams other := by
  rw [setOffset_streams, streams_update_map]
  split
  · subst other; simp [stream]
  · cases σ.streams other <;> rfl

theorem setIndicators_streams_of {σ : Sys} {id : Nat} {s : Stream}
    (stream : σ.streams id = some s) (eof error : Bool) (other : Nat) :
    (σ.setIndicators id eof error).streams other =
      if other = id then some { s with eof := eof, error := error } else σ.streams other := by
  rw [setIndicators_streams, streams_update_map]
  split
  · subst other; simp [stream]
  · cases σ.streams other <;> rfl

theorem fclose_streams_of {σ : Sys} {id : Nat} {s : Stream} (stream : σ.streams id = some s)
    (other : Nat) :
    (σ.fclose id).streams other =
      if other = id then some { s with closedAt := some σ.poll } else σ.streams other := by
  rw [fclose_streams, streams_update_map]
  split
  · subst other; simp [stream]
  · cases σ.streams other <;> rfl

/-- `show`, when no read fails and the held stream's error indicator is clear,
changes of the state only the output, `last`, and the offset and indicators of
the held stream. -/
theorem showFile_frame (cfg : Config) {w : World} (reliable : ∀ id pos, w.readFails id pos = false)
    (j : Nat) (σ : Sys)
    (clean : ∀ id s, (σ.files j).fp = some id → σ.streams id = some s → s.error = false) :
    (Tail.showFile cfg w j σ).files = σ.files ∧ (Tail.showFile cfg w j σ).adoptions = σ.adoptions ∧
      (Tail.showFile cfg w j σ).nextId = σ.nextId ∧ ∀ other, (σ.files j).fp ≠ some other →
        (Tail.showFile cfg w j σ).streams other = σ.streams other := by
  rcases held : (σ.files j).fp with _ | id
  · simp [Tail.showFile, held]
  rcases stream : σ.streams id with _ | s
  · simp [Tail.showFile, held, stream]
  obtain ⟨more, last, shown, -⟩ :=
    showFile_reliable cfg held stream (clean id s held stream) (reliable id)
  refine ⟨by rw [shown]; rfl, by rw [shown]; rfl, by rw [shown]; rfl, fun other ne => ?_⟩
  have other_ne : other ≠ id := fun same => ne (by rw [same])
  rw [shown, setIndicators_streams, Function.update_noteq other_ne, setOffset_streams,
    Function.update_noteq other_ne]

/-- `show` keeps the poll counter, the adoptions and `nextId`. -/
theorem showFile_ghosts (cfg : Config) (w : World) (j : Nat) (σ : Sys) :
    (Tail.showFile cfg w j σ).poll = σ.poll ∧ (Tail.showFile cfg w j σ).adoptions = σ.adoptions ∧
      (Tail.showFile cfg w j σ).nextId = σ.nextId := by
  rcases showFile_cases cfg w j σ with ⟨shown, -⟩ | ⟨_, _, _, _, _, _, _, ⟨shown, -⟩ | shown⟩ <;>
    rw [shown] <;> exact ⟨rfl, rfl, rfl⟩

theorem showFile_poll (cfg : Config) (w : World) (j : Nat) (σ : Sys) :
    (Tail.showFile cfg w j σ).poll = σ.poll :=
  (showFile_ghosts cfg w j σ).1

theorem showFile_adoptions (cfg : Config) (w : World) (j : Nat) (σ : Sys) :
    (Tail.showFile cfg w j σ).adoptions = σ.adoptions :=
  (showFile_ghosts cfg w j σ).2.1

theorem showFile_nextId (cfg : Config) (w : World) (j : Nat) (σ : Sys) :
    (Tail.showFile cfg w j σ).nextId = σ.nextId :=
  (showFile_ghosts cfg w j σ).2.2

theorem dropStream_poll (j : Nat) (σ : Sys) : (σ.dropStream j).poll = σ.poll := by
  unfold dropStream
  split <;> rfl

/-- Replacing entry `j` by a record of the same name renames no entry. -/
theorem file_name_update {files : Nat → FileInfo} {j : Nat} {f : FileInfo}
    (same : f.file_name = (files j).file_name) (i : Nat) :
    (Function.update files j f i).file_name = (files i).file_name := by
  by_cases here : i = j
  · subst here; rw [Function.update_same, same]
  · rw [Function.update_noteq here]

/-- No step renames an entry. -/
theorem showFile_file_name (cfg : Config) (w : World) (j i : Nat) (σ : Sys) :
    ((Tail.showFile cfg w j σ).files i).file_name = (σ.files i).file_name := by
  rcases showFile_cases cfg w j σ with ⟨shown, -⟩ | ⟨_, _, _, _, _, _, _, ⟨shown, -⟩ | shown⟩ <;>
    rw [shown]
  · rfl
  · exact file_name_update (by rfl) i

theorem dropStream_file_name (j i : Nat) (σ : Sys) :
    ((σ.dropStream j).files i).file_name = (σ.files i).file_name := by
  unfold dropStream
  split
  · rfl
  · exact file_name_update (by rfl) i

theorem adopt_file_name (j id start : Nat) (st : Stat) (i : Nat) (σ : Sys) :
    ((σ.adopt j id start st).files i).file_name = (σ.files i).file_name :=
  file_name_update (by rfl) i

/-- Dropping entry `j`'s stream changes no adoption, not `nextId`, and no other
stream. -/
theorem dropStream_frame (j : Nat) (σ : Sys) :
    (σ.dropStream j).adoptions = σ.adoptions ∧ (σ.dropStream j).nextId = σ.nextId ∧
      ∀ other, (σ.files j).fp ≠ some other → (σ.dropStream j).streams other = σ.streams other := by
  unfold Sys.dropStream
  split
  · exact ⟨rfl, rfl, fun _ _ => rfl⟩
  · refine ⟨rfl, rfl, fun other ne => ?_⟩
    simp only [setFile_streams, fclose_streams]
    exact Function.update_noteq (fun same => ne (by simp_all)) _ _

end Sys

/-! ## Positioning -/

/-- What `positionFile` does: nothing when the entry has no stream, else it runs
`forward`, moves the stream and sets its indicators as `forward` leaves them,
writes, and records the adoption of the stream at its new offset. -/
theorem positionFile_spec {cfg : Config} {style : Style} {off : Nat} {io : Nat → Io} {w : World}
    {i : Nat} {σ σ' : Sys} (positioned : positionFile cfg style off io w i σ = some σ') :
    σ' = σ ∧ (∀ id, (σ.files i).fp = some id → σ.streams id = none) ∨
    ∃ id s e out errs, (σ.files i).fp = some id ∧ σ.streams id = some s ∧
      forward (io i) (σ.files i).st (w.content s.ident) s.offset style off = some e ∧
      σ' = { (σ.setOffset id e.pos).setIndicators id e.eof e.error with
        out := out, errs := errs, adoptions := σ.adoptions ++ [⟨i, id, e.pos, none⟩] } := by
  unfold positionFile at positioned
  rcases held : (σ.files i).fp with _ | id
  · simp only [held, Option.some.injEq] at positioned
    exact .inl ⟨positioned.symm, by simp⟩
  rcases stream : σ.streams id with _ | s
  · simp only [held, stream, Option.some.injEq] at positioned
    exact .inl ⟨positioned.symm, by simp [stream]⟩
  simp only [held, stream] at positioned
  obtain ⟨e, ran, kept⟩ := Option.bind_eq_some.mp positioned
  split at kept
  · cases kept
  · cases kept
    by_cases hdr : cfg.headers
    · simp only [if_pos hdr] at ran
      exact .inr ⟨id, s, e, _, _, rfl, stream, ran, by simp only [if_pos hdr]; rfl⟩
    · simp only [if_neg hdr] at ran
      exact .inr ⟨id, s, e, _, _, rfl, stream, ran, by simp only [if_neg hdr]; rfl⟩

end Tail
end Userland
