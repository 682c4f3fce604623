import Userland.Tail.Follow.Recovery
import Userland.Tail.Failures
import Mathlib.Data.List.Chain

/-!
# Rotation: every adopted file is shown once and, but for one case, in full

Suppose that between two polls files only grow by appends, and that no read
fails, in `forward` or in a poll.  Then what the poll loop writes for an entry
is, file after file in the order the entry adopted them, each file's content
from the offset it was adopted at up to its length at the poll that dropped it,
or at the latest poll for the file the entry still holds.  The one exception is
a stream `forward` left at the end of its file: its end-of-file indicator is
set, `show` reads nothing from it in the first poll, and when that poll drops
it, or is the latest, what was appended to it after `forward` is not written.
Each file a poll adopts is the one the entry's path names in that poll.  Opens
and `fstat`s may fail and paths may be removed, renamed or replaced in any way.

The proof keeps a tally through every step of every poll: what an entry has
written since `follow` began polling is the bytes of its adoptions between the
adoption offset and the stream's offset, read in the world of the poll that
closed the stream, or in the current world while it is open.  `show` moves an
offset to the end of the file and writes exactly the bytes it passes over, or,
on a lagging stream in the first poll, writes nothing and moves nothing; a
stream is dropped only right after `show`; an adoption starts at offset `0` on a
stream that has read nothing.
-/

namespace Userland
namespace Tail

/-! ## The bytes of an adoption -/

/-- The adoptions of entry `i`, in order. -/
def Sys.adoptionsOf (σ : Sys) (i : Nat) : List Adoption :=
  σ.adoptions.filter fun a => a.entry = i

/-- The world a stream is read in among the polls `ws`: that of the poll that
closed it, or the latest one while it is open. -/
def worldOf (ws : List World) (s : Stream) : Option World :=
  match s.closedAt with
  | some k => ws[k]?
  | none => ws.getLast?

/-- Stream `s` of adoption `a` lags in the polls `ws`: `forward` left its
end-of-file indicator set (`lagging`), and the poll that closed it, or the latest
poll while it is open, is the first, whose `show` read nothing from it. -/
def Lags (lagging : Nat → Bool) (ws : List World) (s : Stream) (a : Adoption) : Prop :=
  lagging a.stream = true ∧ s.closedAt.getD (ws.length - 1) = 0

instance (lagging : Nat → Bool) (ws : List World) (s : Stream) (a : Adoption) :
    Decidable (Lags lagging ws s a) :=
  inferInstanceAs (Decidable (_ ∧ _))

/-- What the poll loop owes adoption `a` after the polls `ws`: the file's content
from the adoption offset up to its length at the poll that closed the stream, or
at the latest poll, and nothing when the stream lags. -/
def owed (lagging : Nat → Bool) (ws : List World) (σ : Sys) (a : Adoption) : List Byte :=
  match σ.streams a.stream with
  | none => []
  | some s =>
    match worldOf ws s with
    | none => []
    | some w => if Lags lagging ws s a then [] else (w.content s.ident).drop a.start

/-- What the stream of adoption `a` has read since it was adopted. -/
def drawn (ws : List World) (σ : Sys) (a : Adoption) : List Byte :=
  match σ.streams a.stream with
  | none => []
  | some s =>
    match worldOf ws s with
    | none => []
    | some w => ((w.content s.ident).take s.offset).drop a.start

theorem drawn_congr {ws : List World} {σ σ' : Sys} {a : Adoption}
    (same : σ'.streams a.stream = σ.streams a.stream) : drawn ws σ' a = drawn ws σ a := by
  simp only [drawn, same]

theorem drawn_of {ws : List World} {σ : Sys} {a : Adoption} {s : Stream} {w : World}
    (stream : σ.streams a.stream = some s) (world : worldOf ws s = some w) :
    drawn ws σ a = ((w.content s.ident).take s.offset).drop a.start := by
  simp only [drawn, stream, world]

theorem worldOf_open {ws : List World} {s : Stream} (isOpen : s.closedAt = none) :
    worldOf ws s = ws.getLast? := by
  simp [worldOf, isOpen]

/-- Closing an open stream in the last poll keeps the world it is read in. -/
theorem worldOf_close {ws : List World} {s : Stream} (isOpen : s.closedAt = none) {k : Nat}
    (last : k + 1 = ws.length) : worldOf ws { s with closedAt := some k } = worldOf ws s := by
  simp only [worldOf, isOpen, List.getLast?_eq_getElem?, ← last, Nat.add_sub_cancel]

/-- The bytes between `start` and `offset`, then those from `offset` on. -/
theorem drop_take_append_drop (c : List Byte) {start offset : Nat} (le : start ≤ offset) :
    (c.take offset).drop start ++ c.drop offset = c.drop start :=
  calc (c.take offset).drop start ++ c.drop offset
      = (c.drop start).take (offset - start) ++ (c.drop start).drop (offset - start) := by
        rw [List.drop_take, List.drop_drop, Nat.add_sub_cancel' le]
    _ = c.drop start := List.take_append_drop _ _

/-- The bytes a stream has read stay the same when its file grows. -/
theorem drop_take_of_prefix {c c' : List Byte} (grows : c <+: c') {start offset : Nat}
    (within : offset = start ∨ offset ≤ c.length) :
    (c'.take offset).drop start = (c.take offset).drop start := by
  rcases within with rfl | within
  · simp [List.drop_take]
  · obtain ⟨t, rfl⟩ := grows
    rw [List.take_append_of_le_length within]

/-- Between two polls every file only grew by appends. -/
def World.Grows (v w : World) : Prop :=
  ∀ x, v.content x <+: w.content x

/-- A stream that has read its file to the end, or lags having read nothing, has
drawn all it owes. -/
theorem drawn_eq_owed {lagging : Nat → Bool} {ws : List World} {σ : Sys} {a : Adoption}
    {s : Stream} {w : World} (stream : σ.streams a.stream = some s) (world : worldOf ws s = some w)
    (done : (w.content s.ident).length ≤ s.offset ∨ Lags lagging ws s a)
    (lags : Lags lagging ws s a → s.offset = a.start) : drawn ws σ a = owed lagging ws σ a := by
  simp only [drawn, owed, stream, world]
  split
  · next lagged => rw [lags lagged, List.drop_take, Nat.sub_self, List.take_zero]
  · next fresh => rw [List.take_of_length_le (done.resolve_right fresh)]

/-- What `show` passes over extends what the stream had read. -/
theorem take_shown_drop (w : World) (s : Stream) {start : Nat} (le : start ≤ s.offset) :
    ((w.content s.ident).take (s.shown w).offset).drop start =
      ((w.content s.ident).take s.offset).drop start ++ s.unread w := by
  cases atEof : s.eof
  · have offset : (s.shown w).offset = s.offset + ((w.content s.ident).length - s.offset) := by
      simp [Stream.shown, Stream.unread, atEof]
    rw [offset, List.take_of_length_le (by omega), ← drop_take_append_drop _ le]
    simp [Stream.unread, atEof]
  · simp [Stream.shown, Stream.unread, atEof]

theorem lags_of_closedAt {lagging : Nat → Bool} {ws : List World} {s s' : Stream} {a : Adoption}
    (same : s'.closedAt = s.closedAt) : Lags lagging ws s' a ↔ Lags lagging ws s a := by
  simp [Lags, same]

theorem lags_open {lagging : Nat → Bool} {ws : List World} {s : Stream} {a : Adoption}
    (isOpen : s.closedAt = none) {poll : Nat} (current : ws.length = poll + 1) :
    Lags lagging ws s a ↔ lagging a.stream = true ∧ poll = 0 := by
  simp [Lags, isOpen, current]

/-! ## What is known of an adopted stream -/

/-- What the tally knows of stream `s` of adoption `a`, read in world `w`, during
poll `poll` of the polls `ws`. -/
structure Reading (lagging : Nat → Bool) (ws : List World) (poll : Nat) (a : Adoption)
    (s : Stream) (w : World) : Prop where
  /-- The stream has read from the adoption offset on. -/
  start_le : a.start ≤ s.offset
  /-- It is past the end of its file only if it started there. -/
  within : s.offset = a.start ∨ s.offset ≤ (w.content s.ident).length
  /-- Once closed it has read its file to the end, unless it lags. -/
  closed : s.closedAt ≠ none → (w.content s.ident).length ≤ s.offset ∨ Lags lagging ws s a
  /-- A lagging stream has read nothing. -/
  lags : Lags lagging ws s a → s.offset = a.start
  /-- No read of it failed. -/
  error : s.error = false
  /-- Its end-of-file indicator is set only while it is open and lagging, in the
  first poll. -/
  eof : s.eof = true → s.closedAt = none ∧ lagging a.stream = true ∧ poll = 0

namespace Reading

variable {lagging : Nat → Bool} {ws : List World} {poll : Nat} {a : Adoption} {s : Stream}
  {w : World}

/-- An open stream that has read nothing since its adoption. -/
theorem unread (start : s.offset = a.start) (isOpen : s.closedAt = none) (error : s.error = false)
    (eof : s.eof = true → lagging a.stream = true ∧ poll = 0) : Reading lagging ws poll a s w :=
  ⟨start.ge, .inl start, fun closed => absurd isOpen closed, fun _ => start, error,
    fun set => ⟨isOpen, eof set⟩⟩

/-- `show` on an open stream in the current poll, which on a lagging stream in
the first poll meets the end-of-file indicator: the stream it leaves has read
its file to the end, or lags. -/
theorem shown (r : Reading lagging ws poll a s w) (isOpen : s.closedAt = none)
    (current : ws.length = poll + 1)
    (pending : lagging a.stream = true → poll = 0 → s.eof = true) :
    Reading lagging ws poll a (s.shown w) w ∧
      ((w.content s.ident).length ≤ (s.shown w).offset ∨ Lags lagging ws (s.shown w) a) := by
  have lags : Lags lagging ws (s.shown w) a ↔ lagging a.stream = true ∧ poll = 0 :=
    lags_open (show (s.shown w).closedAt = none from isOpen) current
  have offset := Stream.shown_offset w s
  cases atEof : s.eof
  · have reads : ¬(lagging a.stream = true ∧ poll = 0) := fun ⟨lagged, first⟩ => by
      simpa [atEof] using pending lagged first
    simp only [atEof, Bool.false_eq_true, if_false] at offset
    have start := r.start_le
    have within := r.within
    refine ⟨⟨?_, ?_, fun closed => absurd isOpen closed, fun lagged => absurd (lags.mp lagged) reads,
      rfl, nofun⟩, .inl ?_⟩ <;> simp only [offset, Stream.shown_ident] <;> omega
  · simp only [atEof, if_true] at offset
    obtain ⟨-, lagged, first⟩ := r.eof atEof
    have lagging' : Lags lagging ws s a := (lags_open isOpen current).mpr ⟨lagged, first⟩
    exact ⟨⟨offset ▸ r.start_le, by simpa [offset] using r.within, fun closed => absurd isOpen closed,
      fun _ => offset.trans (r.lags lagging'), rfl, nofun⟩, .inr (lags.mpr ⟨lagged, first⟩)⟩

/-- Closing, in the current poll, an open stream whose indicator is clear and
that has read its file to the end or lags. -/
theorem close (r : Reading lagging ws poll a s w) (isOpen : s.closedAt = none)
    (current : ws.length = poll + 1) (cleared : s.eof = false)
    (done : (w.content s.ident).length ≤ s.offset ∨ Lags lagging ws s a) :
    Reading lagging ws poll a { s with closedAt := some poll } w := by
  have lags : Lags lagging ws { s with closedAt := some poll } a ↔ Lags lagging ws s a := by
    simp [Lags, isOpen, current]
  exact ⟨r.start_le, r.within, fun _ => done.imp_right lags.mpr, fun lagged => r.lags (lags.mp lagged),
    r.error, fun set => absurd (cleared.symm.trans set) nofun⟩

/-- An open stream, with a clear indicator, carried into the next poll, in a
world into which its file grew. -/
theorem next_open (r : Reading lagging ws poll a s w) (isOpen : s.closedAt = none)
    (current : ws.length = poll + 1) (cleared : s.eof = false) {w' : World}
    (grows : w.content s.ident <+: w'.content s.ident) :
    Reading lagging (ws ++ [w']) (poll + 1) a s w' := by
  have longer := grows.length_le
  have fresh : ¬Lags lagging (ws ++ [w']) s a := by simp [Lags, isOpen, current]
  exact ⟨r.start_le, by have := r.within; omega, fun closed => absurd isOpen closed,
    fun lagged => absurd lagged fresh, r.error, fun set => absurd (cleared.symm.trans set) nofun⟩

/-- A closed stream carried into the next poll. -/
theorem next_closed (r : Reading lagging ws poll a s w) (closed : s.closedAt ≠ none)
    (w' : World) : Reading lagging (ws ++ [w']) (poll + 1) a s w := by
  have lags : Lags lagging (ws ++ [w']) s a ↔ Lags lagging ws s a := by
    obtain ⟨k, closedAt⟩ := Option.ne_none_iff_exists'.mp closed
    simp [Lags, closedAt]
  exact ⟨r.start_le, r.within, fun c => (r.closed c).imp_right lags.mpr,
    fun lagged => r.lags (lags.mp lagged), r.error, fun set => absurd (r.eof set).1 closed⟩

end Reading

/-! ## The tally -/

namespace Sys

theorem mem_adoptionsOf {σ : Sys} {a : Adoption} {i : Nat} :
    a ∈ σ.adoptionsOf i ↔ a ∈ σ.adoptions ∧ a.entry = i := by
  simp [adoptionsOf]

/-- The tally of the poll loop over the first `n` entries, during the last poll
of `ws`, against the bytes `base` each entry had written when polling began, with
`lagging` the streams whose end-of-file indicator `forward` left set. -/
structure Tally (lagging : Nat → Bool) (n : Nat) (base : Nat → List Byte) (ws : List World)
    (σ : Sys) : Prop where
  /-- No stream was adopted twice. -/
  nodup : (σ.adoptions.map Adoption.stream).Nodup
  /-- Adopted streams were opened. -/
  used : ∀ a ∈ σ.adoptions, a.stream < σ.nextId
  /-- Only entries adopt. -/
  entry_lt : ∀ a ∈ σ.adoptions, a.entry < n
  /-- The stream an entry holds is its latest adoption. -/
  latest : ∀ j < n, ∀ id, (σ.files j).fp = some id →
    ∃ pre a, σ.adoptionsOf j = pre ++ [a] ∧ a.stream = id
  /-- The poll under way is the last of `ws`. -/
  poll : σ.poll + 1 = ws.length
  /-- What each entry wrote since polling began is what its adoptions drew. -/
  emitted : ∀ i < n, emitted i σ.out = base i ++ (σ.adoptionsOf i).flatMap (drawn ws σ)
  /-- What is known of each adopted stream. -/
  stream : ∀ a ∈ σ.adoptions, ∃ s w, σ.streams a.stream = some s ∧ worldOf ws s = some w ∧
    Reading lagging ws σ.poll a s w
  /-- A poll adopts the file the entry's path names in it. -/
  named : ∀ a ∈ σ.adoptions, ∀ k, a.poll = some k → ∃ s v, σ.streams a.stream = some s ∧
    ws[k]? = some v ∧ v.lookup (σ.files a.entry).file_name = some s.ident
  /-- The lagging streams were opened before polling began. -/
  lagging_used : ∀ id, lagging id = true → id < σ.nextId

variable {lagging : Nat → Bool} {n : Nat} {base : Nat → List Byte} {ws : List World} {σ : Sys}

theorem Tally.eq_of_stream (t : σ.Tally lagging n base ws) {a b : Adoption} (ha : a ∈ σ.adoptions)
    (hb : b ∈ σ.adoptions) (same : a.stream = b.stream) : a = b :=
  List.inj_on_of_nodup_map t.nodup ha hb same

/-- A held stream was adopted by the entry holding it and by no other. -/
theorem Tally.entry_of_held (t : σ.Tally lagging n base ws) {j : Nat} (below : j < n)
    {a : Adoption} (mem : a ∈ σ.adoptions) (held : (σ.files j).fp = some a.stream) : a.entry = j := by
  obtain ⟨pre, b, split, same⟩ := t.latest j below _ held
  obtain ⟨memB, entry⟩ := mem_adoptionsOf.mp (show b ∈ σ.adoptionsOf j by simp [split])
  rw [t.eq_of_stream mem memB same.symm, entry]

/-- An entry's earlier adoptions read other streams than its latest one. -/
theorem Tally.stream_ne_of_pre (t : σ.Tally lagging n base ws) {j : Nat} {pre : List Adoption}
    {b : Adoption} (split : σ.adoptionsOf j = pre ++ [b]) {a : Adoption} (mem : a ∈ pre) :
    a.stream ≠ b.stream := by
  have nodup : ((pre ++ [b]).map Adoption.stream).Nodup :=
    split ▸ t.nodup.sublist ((List.filter_sublist _).map _)
  rw [List.map_append, List.map_singleton] at nodup
  exact fun same => List.disjoint_singleton.mp (List.nodup_append.mp nodup).2.2
    (same ▸ List.mem_map_of_mem _ mem)

/-- What the tally knows of an adopted stream, read in the world of its file. -/
theorem Tally.reading (t : σ.Tally lagging n base ws) {a : Adoption} (mem : a ∈ σ.adoptions)
    {s : Stream} {w : World} (stream : σ.streams a.stream = some s) (world : worldOf ws s = some w) :
    Reading lagging ws σ.poll a s w := by
  obtain ⟨s', w', stream', world', r⟩ := t.stream a mem
  obtain rfl := Option.some.inj (stream.symm.trans stream')
  obtain rfl := Option.some.inj (world.symm.trans world')
  exact r

/-- Replacing one stream by one that reads the same file, with the adoptions and
the entries' names kept, keeps the files the polls adopted. -/
theorem Tally.named_of_update (t : σ.Tally lagging n base ws) {σ' : Sys} {id : Nat} {s s' : Stream}
    (stream : σ.streams id = some s)
    (streams : ∀ other, σ'.streams other = if other = id then some s' else σ.streams other)
    (ident : s'.ident = s.ident) (adoptions : σ'.adoptions = σ.adoptions)
    (names : ∀ i, (σ'.files i).file_name = (σ.files i).file_name) :
    ∀ a ∈ σ'.adoptions, ∀ k, a.poll = some k → ∃ s v, σ'.streams a.stream = some s ∧
      ws[k]? = some v ∧ v.lookup (σ'.files a.entry).file_name = some s.ident := by
  intro a mem k adopted
  rw [adoptions] at mem
  obtain ⟨s₀, v, stream₀, found, named⟩ := t.named a mem k adopted
  rw [names, streams]
  split
  · next same =>
    obtain rfl := Option.some.inj (stream.symm.trans (same ▸ stream₀))
    exact ⟨s', v, rfl, found, ident ▸ named⟩
  · exact ⟨s₀, v, stream₀, found, named⟩

/-- The tally reads the adoptions, the output, the entries, the poll counter,
and of the streams only the adopted ones. -/
theorem Tally.congr {σ' : Sys} (t : σ.Tally lagging n base ws) (adoptions : σ'.adoptions = σ.adoptions)
    (out : σ'.out = σ.out) (files : σ'.files = σ.files) (poll : σ'.poll = σ.poll)
    (nextId : σ.nextId ≤ σ'.nextId)
    (streams : ∀ a ∈ σ.adoptions, σ'.streams a.stream = σ.streams a.stream) :
    σ'.Tally lagging n base ws := by
  have adoptionsOf : ∀ i, σ'.adoptionsOf i = σ.adoptionsOf i := by simp [adoptionsOf, adoptions]
  refine ⟨by rw [adoptions]; exact t.nodup, fun a mem => ?_, fun a mem => ?_,
    fun j below id held => ?_, by rw [poll]; exact t.poll, fun i below => ?_, fun a mem => ?_,
    fun a mem k adopted => ?_, fun id lagged => lt_of_lt_of_le (t.lagging_used id lagged) nextId⟩
  · rw [adoptions] at mem; exact lt_of_lt_of_le (t.used a mem) nextId
  · rw [adoptions] at mem; exact t.entry_lt a mem
  · rw [adoptionsOf]; exact t.latest j below id (files ▸ held)
  · rw [out, adoptionsOf, t.emitted i below]
    exact congrArg _ (List.flatMap_congr fun a mem =>
      (drawn_congr (streams a (mem_adoptionsOf.mp mem).1)).symm)
  · rw [adoptions] at mem; rw [streams a mem, poll]; exact t.stream a mem
  · rw [adoptions] at mem; rw [streams a mem, files]; exact t.named a mem k adopted

theorem Tally.ierr (t : σ.Tally lagging n base ws) (name : String) :
    (σ.ierr name).Tally lagging n base ws :=
  t.congr rfl rfl rfl rfl le_rfl fun _ _ => rfl

/-- Opening a stream keeps the tally; no adoption reads the new stream, and it
does not lag. -/
theorem Tally.fopen (t : σ.Tally lagging n base ws) {w : World} {i id : Nat} {σ' : Sys}
    (opened : σ.fopen w i = some (id, σ')) :
    σ'.Tally lagging n base ws ∧ (∀ a ∈ σ'.adoptions, a.stream ≠ id) ∧ lagging id = false := by
  obtain ⟨x, fd, rfl, rfl⟩ := fopen_spec opened
  refine ⟨t.congr rfl rfl rfl rfl (Nat.le_succ _) fun a mem =>
    Function.update_noteq (t.used a mem).ne _ _, fun a mem => (t.used a mem).ne, ?_⟩
  cases lagged : lagging σ.nextId
  · rfl
  · exact absurd (t.lagging_used _ lagged) (lt_irrefl _)

/-- Closing a stream no entry adopted keeps the tally. -/
theorem Tally.fclose (t : σ.Tally lagging n base ws) {id : Nat}
    (unadopted : ∀ a ∈ σ.adoptions, a.stream ≠ id) : (σ.fclose id).Tally lagging n base ws :=
  t.congr rfl rfl rfl rfl le_rfl fun a mem => by
    rw [fclose_streams, Function.update_noteq (unadopted a mem)]

/-- `show` on a held open stream, when no read of it fails and a lagging stream
in the first poll still carries its indicator, keeps the tally and leaves the
stream as `show` leaves it: at the end of its file, or, lagging in the first
poll, where it was. -/
theorem Tally.showFile (t : σ.Tally lagging n base ws) (cfg : Config) {w : World}
    (current : ws.getLast? = some w) {j id : Nat} {s : Stream} (below : j < n)
    (held : (σ.files j).fp = some id) (stream : σ.streams id = some s)
    (isOpen : s.closedAt = none) (reliable : ∀ pos, w.readFails id pos = false)
    (pending : lagging id = true → σ.poll = 0 → s.eof = true) :
    (Tail.showFile cfg w j σ).Tally lagging n base ws ∧ (Tail.showFile cfg w j σ).files = σ.files ∧
      (∀ other, (Tail.showFile cfg w j σ).streams other =
        if other = id then some (s.shown w) else σ.streams other) ∧
      ((w.content s.ident).length ≤ (s.shown w).offset ∨ lagging id = true ∧ σ.poll = 0) := by
  obtain ⟨pre, a, split, rfl⟩ := t.latest j below id held
  obtain ⟨adopted, -⟩ := mem_adoptionsOf.mp (show a ∈ σ.adoptionsOf j by simp [split])
  have world : worldOf ws s = some w := by rw [worldOf_open isOpen, current]
  have r := t.reading adopted stream world
  have len : ws.length = σ.poll + 1 := t.poll.symm
  obtain ⟨r', done⟩ := r.shown isOpen len pending
  obtain ⟨more, last, shown, bytes, mine⟩ := showFile_reliable cfg held stream r.error reliable
  have moved : ∀ other, (Tail.showFile cfg w j σ).streams other =
      if other = a.stream then some (s.shown w) else σ.streams other := by
    intro other
    rw [shown]
    by_cases same : other = a.stream
    · subst same; simp [stream, Stream.shown]
    · simp [Function.update_noteq same, same]
  have others : ∀ b, b.stream ≠ a.stream →
      drawn ws (Tail.showFile cfg w j σ) b = drawn ws σ b :=
    fun b ne => drawn_congr (by rw [moved, if_neg ne])
  have out : (Tail.showFile cfg w j σ).out = σ.out ++ more := by rw [shown]; rfl
  have files : (Tail.showFile cfg w j σ).files = σ.files := by rw [shown]; rfl
  have adoptionsOf : ∀ i, (Tail.showFile cfg w j σ).adoptionsOf i = σ.adoptionsOf i := by
    simp [Sys.adoptionsOf, showFile_adoptions]
  refine ⟨⟨?_, ?_, ?_, ?_, ?_, ?_, ?_, t.named_of_update stream moved rfl (showFile_adoptions ..)
    (showFile_file_name cfg w j · σ), ?_⟩, files, moved,
    done.imp_right (lags_open (show (s.shown w).closedAt = none from isOpen) len).mp⟩ <;>
    simp only [showFile_adoptions, showFile_nextId, showFile_poll, files, adoptionsOf]
  · exact t.nodup
  · exact t.used
  · exact t.entry_lt
  · exact t.latest
  · exact t.poll
  · intro i iBelow
    rw [out, emitted_append, t.emitted i iBelow, List.append_assoc]
    by_cases same : i = j
    · subst same
      rw [split, List.flatMap_append, List.flatMap_append, List.flatMap_singleton,
        List.flatMap_singleton, List.flatMap_congr fun b mem => others b (t.stream_ne_of_pre split mem),
        drawn_of ((moved _).trans (if_pos rfl)) (show worldOf ws (s.shown w) = some w from world),
        drawn_of stream world, Stream.shown_ident, take_shown_drop w s r.start_le, bytes,
        List.append_assoc]
    · rw [emitted_of_entry_ne fun o mem => (mine o mem).trans_ne (Ne.symm same), List.append_nil]
      refine congrArg _ (List.flatMap_congr fun b mem => (others b fun ne => ?_).symm)
      obtain ⟨mem, entry⟩ := mem_adoptionsOf.mp mem
      exact same (entry.symm.trans (t.entry_of_held below mem (by rw [ne]; exact held)))
  · intro b mem
    by_cases same : b.stream = a.stream
    · obtain rfl : b = a := t.eq_of_stream mem adopted same
      exact ⟨s.shown w, w, by rw [moved, if_pos rfl], world, r'⟩
    · rw [moved, if_neg same]; exact t.stream b mem
  · exact t.lagging_used

/-- Dropping a held stream whose indicator is clear and that has read its file to
the end, or lags in the first poll, keeps the tally. -/
theorem Tally.dropStream (t : σ.Tally lagging n base ws) {probe : Option Nat}
    (inv : σ.Resources n probe) {w : World} (current : ws.getLast? = some w) {j : Nat} (below : j < n)
    (drained : ∀ id s, (σ.files j).fp = some id → σ.streams id = some s → s.eof = false ∧
      ((w.content s.ident).length ≤ s.offset ∨ lagging id = true ∧ σ.poll = 0)) :
    (σ.dropStream j).Tally lagging n base ws := by
  unfold Sys.dropStream
  rcases held : (σ.files j).fp with _ | id
  · exact t
  obtain ⟨s, stream, isOpen⟩ := (inv.open_iff id).mpr (.inl ⟨j, below, held⟩)
  obtain ⟨cleared, done⟩ := drained id s held stream
  have closed := fclose_streams_of stream
  have len : ws.length = σ.poll + 1 := t.poll.symm
  have world : worldOf ws s = some w := by rw [worldOf_open isOpen, current]
  have world' : worldOf ws { s with closedAt := some σ.poll } = some w :=
    (worldOf_close isOpen t.poll).trans world
  have name : ∀ i, (((σ.fclose id).setFile j { σ.files j with fp := none }).files i).file_name =
      (σ.files i).file_name :=
    file_name_update (by rfl)
  refine ⟨t.nodup, t.used, t.entry_lt, fun k kBelow other kHeld => ?_, t.poll, fun i iBelow => ?_,
    fun a mem => ?_, t.named_of_update stream closed rfl rfl name, t.lagging_used⟩
  · by_cases same : k = j
    · subst same; simp at kHeld
    · simp only [setFile_files, Function.update_noteq same] at kHeld
      exact t.latest k kBelow other kHeld
  · refine (t.emitted i iBelow).trans (congrArg _ (List.flatMap_congr fun a _ => ?_))
    by_cases same : a.stream = id
    · simp only [drawn, setFile_streams, closed, same, if_true, stream, world, world']
    · exact (drawn_congr (by simp only [setFile_streams, closed, if_neg same])).symm
  · by_cases same : a.stream = id
    · have r := t.reading mem (by rw [same]; exact stream) world
      have lags : lagging id = true ∧ σ.poll = 0 → Lags lagging ws s a := fun lagged =>
        (lags_open isOpen len).mpr ⟨same ▸ lagged.1, lagged.2⟩
      exact ⟨_, w, (closed a.stream).trans (if_pos same), world',
        r.close isOpen len cleared (done.imp_right lags)⟩
    · simp only [setFile_streams, closed, if_neg same]
      exact t.stream a mem

theorem drawn_adopt {ws : List World} {σ : Sys} {j id start : Nat} {st : Stat} :
    drawn ws (σ.adopt j id start st) = drawn ws σ := rfl

theorem adoptionsOf_adopt {σ : Sys} {j id start : Nat} {st : Stat} (i : Nat) :
    (σ.adopt j id start st).adoptionsOf i =
      σ.adoptionsOf i ++ if j = i then [⟨j, id, start, some σ.poll⟩] else [] := by
  by_cases same : j = i <;> simp [adoptionsOf, same]

/-- An entry without a stream adopting a fresh, unread, open stream of the file
its path names keeps the tally. -/
theorem Tally.adopt (t : σ.Tally lagging n base ws) {w : World} (current : ws.getLast? = some w)
    {j id : Nat} (below : j < n) (empty : (σ.files j).fp = none)
    (unadopted : ∀ a ∈ σ.adoptions, a.stream ≠ id) (opened : id < σ.nextId) {s : Stream}
    (stream : σ.streams id = some s) (unread : s.offset = 0) (isOpen : s.closedAt = none)
    (eof : s.eof = false) (error : s.error = false)
    (named : w.lookup (σ.files j).file_name = some s.ident) (st : Stat) :
    (σ.adopt j id 0 st).Tally lagging n base ws := by
  have world : worldOf ws s = some w := by rw [worldOf_open isOpen, current]
  refine ⟨?_, List.forall_mem_append.mpr ⟨t.used, List.forall_mem_singleton.mpr opened⟩,
    List.forall_mem_append.mpr ⟨t.entry_lt, List.forall_mem_singleton.mpr below⟩,
    fun k kBelow other held => ?_, t.poll, fun i iBelow => ?_,
    List.forall_mem_append.mpr ⟨t.stream, List.forall_mem_singleton.mpr ⟨s, w, stream, world,
      Reading.unread unread isOpen error fun set => by simp [eof] at set⟩⟩,
    List.forall_mem_append.mpr ⟨fun a mem k adopted => by
      rw [adopt_file_name]; exact t.named a mem k adopted,
      List.forall_mem_singleton.mpr fun k adopted => ⟨s, w, stream, ?_, by
        rw [adopt_file_name]; exact named⟩⟩,
    t.lagging_used⟩
  · simp only [adopt_adoptions, List.map_append, List.map_singleton]
    refine t.nodup.append (List.nodup_singleton _) (List.disjoint_singleton.mpr fun mem => ?_)
    obtain ⟨a, mem, same⟩ := List.mem_map.mp mem
    exact unadopted a mem same
  · by_cases same : k = j
    · subst same
      simp only [adopt_files, Function.update_same, Option.some.injEq] at held
      exact ⟨σ.adoptionsOf k, _, by rw [adoptionsOf_adopt, if_pos rfl], held⟩
    · simp only [adopt_files, Function.update_noteq same] at held
      rw [adoptionsOf_adopt, if_neg (Ne.symm same), List.append_nil]
      exact t.latest k kBelow other held
  · rw [adoptionsOf_adopt, List.flatMap_append, drawn_adopt, adopt_out, t.emitted i iBelow]
    split
    · simp [drawn, stream, world, unread]
    · simp
  · rw [← Option.some.inj adopted, ← current, List.getLast?_eq_getElem?, ← t.poll, Nat.add_sub_cancel]

/-- `show` and then dropping the stream, as the reopen step does for a path that is
gone or names another file, keeps the tally. -/
theorem Tally.showDrop (t : σ.Tally lagging n base ws) {probe : Option Nat}
    (inv : σ.Resources n probe) (cfg : Config) {w : World} (current : ws.getLast? = some w)
    (reliable : ∀ id pos, w.readFails id pos = false) {j : Nat} (below : j < n)
    (pending : ∀ id s, (σ.files j).fp = some id → σ.streams id = some s → lagging id = true →
      σ.poll = 0 → s.eof = true) :
    ((Tail.showFile cfg w j σ).dropStream j).Tally lagging n base ws := by
  rcases held : (σ.files j).fp with _ | id
  · have same : Tail.showFile cfg w j σ = σ := by simp [Tail.showFile, held]
    rw [same]
    exact t.dropStream inv current below fun _ _ held' => by simp [held] at held'
  obtain ⟨s, stream, isOpen⟩ := (inv.open_iff id).mpr (.inl ⟨j, below, held⟩)
  obtain ⟨shown, files, moved, done⟩ :=
    t.showFile cfg current below held stream isOpen (reliable id) (pending id s held stream)
  refine shown.dropStream (inv.showFile cfg w below) current below fun id' s' held' stream' => ?_
  rw [files, held, Option.some.injEq] at held'
  subst held'
  rw [moved, if_pos rfl, Option.some.injEq] at stream'
  subst stream'
  exact ⟨rfl, by rw [showFile_poll]; exact done⟩

/-- The reopen step keeps the tally: a stream it drops was shown just before, and
a stream it adopts is fresh, unread, and reads the file the path names. -/
theorem Tally.reopen (t : σ.Tally lagging n base ws) (inv : σ.Resources n none) (cfg : Config)
    {w : World} (current : ws.getLast? = some w) (reliable : ∀ id pos, w.readFails id pos = false)
    {j : Nat} (below : j < n)
    (pending : ∀ id s, (σ.files j).fp = some id → σ.streams id = some s → lagging id = true →
      σ.poll = 0 → s.eof = true) :
    (Tail.reopen cfg w j σ).Tally lagging n base ws := by
  unfold Tail.reopen
  rcases held : (σ.files j).fp with _ | fp <;> dsimp only
  · rcases opened : σ.fopen w j with _ | ⟨id, σ'⟩ <;> dsimp only
    · exact t
    obtain ⟨t', unadopted, -⟩ := t.fopen opened
    obtain ⟨-, files, -, x, named, stream⟩ := inv.fopen opened
    obtain ⟨_, _, rfl, made⟩ := fopen_spec opened
    split
    · exact t'.fclose unadopted
    · exact t'.adopt current below (by rw [files]; exact held) unadopted (by rw [made]; simp)
        stream rfl rfl rfl rfl (by rw [files]; exact named) _
  · split
    · exact t
    rcases opened : σ.fopen w j with _ | ⟨ftmp, σ'⟩ <;> dsimp only
    · by_cases fails : w.openFails j
      · simp only [fails, if_true]
        exact (t.ierr _).showDrop (inv.ierr _) cfg current reliable below pending
      · simp only [fails, Bool.false_eq_true, if_false]
        exact t.showDrop inv cfg current reliable below pending
    obtain ⟨t', unadopted, -⟩ := t.fopen opened
    obtain ⟨inv', files, -, x, named, stream⟩ := inv.fopen opened
    obtain ⟨_, _, rfl, made⟩ := fopen_spec opened
    have unheld : fp ≠ σ.nextId := fun same => by
      obtain ⟨s, stream, -⟩ := inv.st_ident j below fp held
      rw [same, inv.fresh _ le_rfl] at stream
      cases stream
    have pending' : ∀ id s, (σ'.files j).fp = some id → σ'.streams id = some s →
        lagging id = true → σ'.poll = 0 → s.eof = true := fun id s held' stream' => by
      rw [files, held, Option.some.injEq] at held'
      subst held'
      simp only [made, Function.update_noteq unheld] at stream'
      rw [made]
      exact pending fp s held stream'
    split
    · refine ((t'.ierr _).showDrop (inv'.ierr _) cfg current reliable below pending').fclose ?_
      rw [(dropStream_frame j _).1, showFile_adoptions]
      exact unadopted
    · split
      · have step := (@footprint_showFile j (σ.nextId + 1) σ' cfg w).trans footprint_dropStream
        have kept : ((Tail.showFile cfg w j σ').dropStream j).streams σ.nextId =
            σ'.streams σ.nextId :=
          step.streams_eq (by rw [files, held]; simpa using unheld) (Nat.lt_succ_self _)
        exact (t'.showDrop inv' cfg current reliable below pending').adopt current below
          (dropStream_fp j) (by rw [(dropStream_frame j _).1, showFile_adoptions]; exact unadopted)
          (by rw [(dropStream_frame j _).2.1, showFile_nextId, made]; simp) (kept.trans stream)
          rfl rfl rfl rfl (by rw [dropStream_file_name, showFile_file_name, files]; exact named) _
      · exact t'.fclose unadopted

theorem fopen_poll {σ σ' : Sys} {w : World} {i id : Nat} (opened : σ.fopen w i = some (id, σ')) :
    σ'.poll = σ.poll := by
  obtain ⟨_, _, -, rfl⟩ := fopen_spec opened
  rfl

theorem reopen_poll (cfg : Config) (w : World) (j : Nat) (σ : Sys) :
    (Tail.reopen cfg w j σ).poll = σ.poll := by
  unfold Tail.reopen
  split
  · split
    · rfl
    · rename_i opened
      rw [← fopen_poll opened]
      split <;> rfl
  · split
    · rfl
    split
    · rw [dropStream_poll, showFile_poll]
      split <;> rfl
    · rename_i opened
      rw [← fopen_poll opened]
      split
      · simp only [fclose_poll, dropStream_poll, showFile_poll, ierr_poll]
      · split
        · simp only [adopt_poll, dropStream_poll, showFile_poll]
        · rfl

/-! ## The show loop of a poll -/

/-- How far the show loop of a poll has got: the entries from `m` on have not been
shown, so a stream lagging in the first poll still carries its indicator; the
adopted streams of the entries below `m` have a clear indicator and have read
their files to the end, or lag. -/
structure Progress (lagging : Nat → Bool) (n m : Nat) (ws : List World) (σ : Sys) : Prop where
  /-- A lagging stream not yet shown in the first poll still meets `EOF`. -/
  pending : ∀ j < n, m ≤ j → ∀ id s, (σ.files j).fp = some id → σ.streams id = some s →
    lagging id = true → σ.poll = 0 → s.eof = true
  /-- The entries below `m` are shown. -/
  shown : ∀ a ∈ σ.adoptions, a.entry < m → ∀ s w, σ.streams a.stream = some s →
    worldOf ws s = some w → s.eof = false ∧ ((w.content s.ident).length ≤ s.offset ∨ Lags lagging ws s a)

/-- The reopen step keeps the streams a lagging stream still has to be shown by:
it leaves a held stream as it was, or adopts a fresh one, which does not lag. -/
theorem Progress.reopen (p : σ.Progress lagging n 0 ws) (t : σ.Tally lagging n base ws)
    (inv : σ.Resources n none) (cfg : Config) (w : World) {j : Nat} (below : j < n) :
    (Tail.reopen cfg w j σ).Progress lagging n 0 ws := by
  refine ⟨fun k kBelow _ id s held stream lagged first => ?_, fun a _ entry => absurd entry (Nat.not_lt_zero _)⟩
  rw [reopen_poll] at first
  by_cases same : k = j
  · subst same
    rcases reopen_held inv below held with ⟨held, kept⟩ | ⟨fresh, -⟩
    · exact p.pending k kBelow (Nat.zero_le _) id s held (kept ▸ stream) lagged first
    · exact absurd (t.lagging_used id lagged) (not_lt.mpr fresh)
  · obtain ⟨files, kept⟩ := (footprint_reopen cfg w j σ).keeps inv kBelow below same
    rw [files] at held
    exact p.pending k kBelow (Nat.zero_le _) id s held ((kept id held) ▸ stream) lagged first

/-- An open adopted stream is held by the entry that adopted it. -/
theorem Tally.held_of_open (t : σ.Tally lagging n base ws) (inv : σ.Resources n none)
    {a : Adoption} (mem : a ∈ σ.adoptions) {s : Stream} (stream : σ.streams a.stream = some s)
    (isOpen : s.closedAt = none) : (σ.files a.entry).fp = some a.stream := by
  rcases (inv.open_iff a.stream).mp ⟨s, stream, isOpen⟩ with ⟨k, below, held⟩ | impossible
  · rwa [t.entry_of_held below mem held]
  · cases impossible

/-- An adopted stream its entry no longer holds was closed, with a clear
indicator, having read its file to the end or lagging. -/
theorem Tally.settled_of_unheld (t : σ.Tally lagging n base ws) (inv : σ.Resources n none)
    {a : Adoption} (mem : a ∈ σ.adoptions) (unheld : (σ.files a.entry).fp ≠ some a.stream)
    {s : Stream} {w : World} (stream : σ.streams a.stream = some s)
    (world : worldOf ws s = some w) :
    s.eof = false ∧ ((w.content s.ident).length ≤ s.offset ∨ Lags lagging ws s a) := by
  have r := t.reading mem stream world
  have closed : s.closedAt ≠ none := fun isOpen => unheld (t.held_of_open inv mem stream isOpen)
  exact ⟨Bool.eq_false_iff.mpr fun set => closed (r.eof set).1, r.closed closed⟩

/-- `if (file->fp) show(file);` for entry `j` keeps the tally and moves the show
loop past entry `j`. -/
theorem Tally.showIfOpen (t : σ.Tally lagging n base ws) (inv : σ.Resources n none)
    (cfg : Config) {w : World} (current : ws.getLast? = some w)
    (reliable : ∀ id pos, w.readFails id pos = false) {j : Nat} (below : j < n)
    (p : σ.Progress lagging n j ws) :
    (Tail.showIfOpen cfg w j σ).Tally lagging n base ws ∧
      (Tail.showIfOpen cfg w j σ).Progress lagging n (j + 1) ws := by
  unfold Tail.showIfOpen
  rcases held : (σ.files j).fp with _ | id
  · refine ⟨t, fun k kBelow after => p.pending k kBelow (by omega), fun a mem entry s w' stream world => ?_⟩
    rcases Nat.lt_succ_iff_lt_or_eq.mp entry with before | rfl
    · exact p.shown a mem before s w' stream world
    · exact t.settled_of_unheld inv mem (by simp [held]) stream world
  obtain ⟨s, stream, isOpen⟩ := (inv.open_iff id).mpr (.inl ⟨j, below, held⟩)
  obtain ⟨shown, files, moved, done⟩ := t.showFile cfg current below held stream isOpen (reliable id)
    (p.pending j below le_rfl id s held stream)
  rw [Option.isSome_some, if_pos rfl]
  refine ⟨shown, fun k kBelow after id' s' held' stream' => ?_,
    fun a mem entry s' w' stream' world' => ?_⟩
  · rw [files] at held'
    have other : id' ≠ id := fun same => by
      have := inv.held_unique k kBelow j below id' held' (same ▸ held)
      omega
    rw [moved, if_neg other] at stream'
    rw [showFile_poll]
    exact p.pending k kBelow (by omega) id' s' held' stream'
  · rw [showFile_adoptions] at mem
    by_cases same : a.stream = id
    · rw [same, moved, if_pos rfl, Option.some.injEq] at stream'
      subst stream'
      have world : worldOf ws s = some w := by rw [worldOf_open isOpen, current]
      obtain rfl : w = w' := Option.some.inj (world.symm.trans world')
      refine ⟨rfl, done.imp_right fun lagged => (lags_open (show (s.shown w).closedAt = none from isOpen)
        t.poll.symm).mpr ?_⟩
      rw [same]
      exact lagged
    · have unheld : (σ.files j).fp ≠ some a.stream := by simpa [held] using Ne.symm same
      rw [moved, if_neg same] at stream'
      rcases Nat.lt_succ_iff_lt_or_eq.mp entry with before | rfl
      · exact p.shown a mem before s' w' stream' world'
      · exact t.settled_of_unheld inv mem unheld stream' world'

theorem worldOf_append_open {ws : List World} {s : Stream} (isOpen : s.closedAt = none) (w : World) :
    worldOf (ws ++ [w]) s = some w := by
  simp [worldOf, isOpen]

theorem worldOf_append_closed {ws : List World} {s : Stream} {v : World}
    (closed : s.closedAt ≠ none) (world : worldOf ws s = some v) (w : World) :
    worldOf (ws ++ [w]) s = some v := by
  obtain ⟨k, closedAt⟩ := Option.ne_none_iff_exists'.mp closed
  simp only [worldOf, closedAt] at world ⊢
  rw [List.getElem?_append_left (List.getElem?_eq_some_iff.mp world).1, world]

/-- The tally at the end of a poll, with every entry shown, carries over to the
next poll, in a world into which every file only grew. -/
theorem Tally.next (t : σ.Tally lagging n base ws) (p : σ.Progress lagging n n ws) {w w' : World}
    (current : ws.getLast? = some w) (grows : w.Grows w') :
    ({ σ with poll := σ.poll + 1 } : Sys).Tally lagging n base (ws ++ [w']) ∧
      ({ σ with poll := σ.poll + 1 } : Sys).Progress lagging n 0 (ws ++ [w']) := by
  have len : ws.length = σ.poll + 1 := t.poll.symm
  have carried : ∀ a ∈ σ.adoptions, ∃ s v, σ.streams a.stream = some s ∧
      worldOf (ws ++ [w']) s = some v ∧ Reading lagging (ws ++ [w']) (σ.poll + 1) a s v ∧
      drawn (ws ++ [w']) σ a = drawn ws σ a := by
    intro a mem
    obtain ⟨s, v, stream, world, r⟩ := t.stream a mem
    by_cases isOpen : s.closedAt = none
    · rw [worldOf_open isOpen, current, Option.some.injEq] at world
      subst world
      have cleared := (p.shown a mem (t.entry_lt a mem) s w stream
        (by rw [worldOf_open isOpen, current])).1
      refine ⟨s, w', stream, worldOf_append_open isOpen w',
        r.next_open isOpen len cleared (grows s.ident), ?_⟩
      rw [drawn_of stream (worldOf_append_open isOpen w'),
        drawn_of stream (by rw [worldOf_open isOpen, current]),
        drop_take_of_prefix (grows s.ident) r.within]
    · have world' := worldOf_append_closed isOpen world w'
      exact ⟨s, v, stream, world', r.next_closed isOpen w',
        by rw [drawn_of stream world', drawn_of stream world]⟩
  refine ⟨⟨t.nodup, t.used, t.entry_lt, t.latest, by simp [len], fun i below => ?_, fun a mem => ?_,
    fun a mem k adopted => ?_, t.lagging_used⟩,
    ⟨fun _ _ _ _ _ _ _ _ first => absurd first (Nat.succ_ne_zero _),
      fun _ _ entry => absurd entry (Nat.not_lt_zero _)⟩⟩
  · refine (t.emitted i below).trans (congrArg _ (List.flatMap_congr fun a mem => ?_))
    obtain ⟨-, -, -, -, -, same⟩ := carried a (mem_adoptionsOf.mp mem).1
    exact same.symm
  · obtain ⟨s, v, stream, world, r, -⟩ := carried a mem
    exact ⟨s, v, stream, world, r⟩
  · obtain ⟨s, v, stream, found, named⟩ := t.named a mem k adopted
    exact ⟨s, v, stream, by rw [List.getElem?_append_left (List.getElem?_eq_some_iff.mp found).1, found],
      named⟩

/-- The show loop of a poll keeps the tally and shows every entry. -/
theorem Tally.showAll (t : σ.Tally lagging n base ws) (inv : σ.Resources n none)
    (p : σ.Progress lagging n 0 ws) (cfg : Config) {w : World} (current : ws.getLast? = some w)
    (reliable : ∀ id pos, w.readFails id pos = false) :
    ∀ m ≤ n, (forEach (Tail.showIfOpen cfg w) m σ).Tally lagging n base ws ∧
      (forEach (Tail.showIfOpen cfg w) m σ).Resources n none ∧
      (forEach (Tail.showIfOpen cfg w) m σ).Progress lagging n m ws
  | 0, _ => ⟨t, inv, p⟩
  | m + 1, within => by
    obtain ⟨t', inv', p'⟩ := t.showAll inv p cfg current reliable m (by omega)
    obtain ⟨t'', p''⟩ := t'.showIfOpen inv' cfg current reliable (by omega) p'
    exact ⟨t'', inv'.showIfOpen cfg w (by omega), p''⟩

end Sys

/-! ## Polls -/

namespace Sys

variable {lagging : Nat → Bool} {n : Nat} {base : Nat → List Byte} {ws : List World} {σ : Sys}

/-- The state between two polls, after the polls `ws`: each entry has written
what its adoptions are owed, each poll adopted the file the path named in it, and
the tally carries over to a next poll in any world into which the files grew. -/
structure Settled (lagging : Nat → Bool) (n : Nat) (base : Nat → List Byte) (ws : List World)
    (σ : Sys) : Prop where
  /-- The resource invariant. -/
  resources : σ.Resources n none
  /-- Every entry has written what it owes. -/
  paid : ∀ i < n, emitted i σ.out = base i ++ (σ.adoptionsOf i).flatMap (owed lagging ws σ)
  /-- A poll adopts the file the entry's path names in it. -/
  named : ∀ a ∈ σ.adoptions, ∀ k, a.poll = some k → ∃ s v, σ.streams a.stream = some s ∧
    ws[k]? = some v ∧ v.lookup (σ.files a.entry).file_name = some s.ident
  /-- The tally of a next poll, with no entry shown yet. -/
  next : ∀ w, (∀ v ∈ ws.getLast?, v.Grows w) →
    σ.Tally lagging n base (ws ++ [w]) ∧ σ.Progress lagging n 0 (ws ++ [w])

/-- One poll, in a world into which the files grew and where no read fails. -/
theorem Settled.pollOnce {cfg : Config} (settled : σ.Settled lagging cfg.no_files base ws)
    {w : World} (grows : ∀ v ∈ ws.getLast?, v.Grows w)
    (reliable : ∀ id pos, w.readFails id pos = false) :
    (Tail.pollOnce cfg w σ).Settled lagging cfg.no_files base (ws ++ [w]) := by
  obtain ⟨t, p⟩ := settled.next w grows
  have current : (ws ++ [w]).getLast? = some w := List.getLast?_concat ws
  have reopened : (if cfg.Fflag then forEach (Tail.reopen cfg w) cfg.no_files σ else σ).Tally
      lagging cfg.no_files base (ws ++ [w]) ∧
      (if cfg.Fflag then forEach (Tail.reopen cfg w) cfg.no_files σ else σ).Resources
        cfg.no_files none ∧
      (if cfg.Fflag then forEach (Tail.reopen cfg w) cfg.no_files σ else σ).Progress
        lagging cfg.no_files 0 (ws ++ [w]) := by
    split
    · exact @forEach_induction _ (fun σ : Sys => σ.Tally lagging cfg.no_files base (ws ++ [w]) ∧
        σ.Resources cfg.no_files none ∧ σ.Progress lagging cfg.no_files 0 (ws ++ [w])) _ _
        (fun i below _ ⟨t, inv, p⟩ => ⟨t.reopen inv cfg current reliable below fun id s =>
          p.pending i below (Nat.zero_le _) id s, inv.reopen cfg w below,
          p.reopen t inv cfg w below⟩) _ le_rfl σ ⟨t, settled.resources, p⟩
    · exact ⟨t, settled.resources, p⟩
  obtain ⟨t', inv', p'⟩ := reopened.1.showAll reopened.2.1 reopened.2.2 cfg current reliable _ le_rfl
  refine ⟨inv'.congr rfl rfl rfl rfl, fun i below => ?_, fun a mem k adopted => t'.named a mem k adopted,
    fun w' grows' => t'.next p' current (grows' w current)⟩
  refine (t'.emitted i below).trans (congrArg _ (List.flatMap_congr fun a mem => ?_))
  obtain ⟨mem, entry⟩ := mem_adoptionsOf.mp mem
  obtain ⟨s, v, stream, world, r⟩ := t'.stream a mem
  exact drawn_eq_owed stream world (p'.shown a mem (entry ▸ below) s v stream world).2 r.lags

/-- The polls of a run, from a settled state, in worlds where files only grow and
no read fails. -/
theorem Settled.polls {cfg : Config} (settled : σ.Settled lagging cfg.no_files base ws)
    (rest : List World) (chain : List.Chain' World.Grows (ws ++ rest))
    (reliable : ∀ v ∈ rest, ∀ id pos, v.readFails id pos = false) :
    (Tail.polls cfg rest σ).Settled lagging cfg.no_files base (ws ++ rest) := by
  induction rest generalizing σ ws with
  | nil => simpa using settled
  | cons w rest ih =>
    have grows : ∀ v ∈ ws.getLast?, v.Grows w :=
      fun v mem => (List.chain'_append.mp chain).2.2 v mem w rfl
    have polled := settled.pollOnce grows (reliable w (List.mem_cons_self _ _))
    rw [List.append_cons] at chain ⊢
    exact ih polled chain fun v mem => reliable v (List.mem_cons_of_mem _ mem)

/-! ## The positioning loop -/

theorem adoptionsOf_append {σ σ' : Sys} {a : Adoption} (adopted : σ'.adoptions = σ.adoptions ++ [a])
    (i : Nat) : σ'.adoptionsOf i = σ.adoptionsOf i ++ if a.entry = i then [a] else [] := by
  by_cases same : a.entry = i <;> simp [adoptionsOf, adopted, same]

/-- The state of the positioning loop once it handled the entries below `m`: each
of them that has a stream adopted it, open, with a clear error indicator, at the
offset `forward` left it at, and nothing else was adopted. -/
structure Positioned (n m : Nat) (σ : Sys) : Prop where
  /-- The resource invariant. -/
  resources : σ.Resources n none
  /-- No stream was adopted twice. -/
  nodup : (σ.adoptions.map Adoption.stream).Nodup
  /-- Each adoption is of an entry below `m`, outside any poll, which holds the
  stream, open, unmoved and with no failed read. -/
  adopted : ∀ a ∈ σ.adoptions, a.entry < m ∧ a.poll = none ∧ (σ.files a.entry).fp = some a.stream ∧
    ∃ s, σ.streams a.stream = some s ∧ s.offset = a.start ∧ s.closedAt = none ∧ s.error = false
  /-- An entry below `m` with a stream adopted it and nothing else. -/
  latest : ∀ j < m, ∀ id, (σ.files j).fp = some id → ∃ a, σ.adoptionsOf j = [a] ∧ a.stream = id
  /-- No poll has run. -/
  poll : σ.poll = 0

section Positioning

variable {io : Nat → Io} (readable : ∀ i pos, (io i).getcFails pos = false)
  (uncut : ∀ i, (io i).reverseCut = none)
include readable uncut

theorem Positioned.positionFile {cfg : Config} {m : Nat} (p : σ.Positioned cfg.no_files m)
    (below : m < cfg.no_files) {style : Style} {off : Nat} {w : World} {σ' : Sys}
    (positioned : Tail.positionFile cfg style off io w m σ = some σ') :
    σ'.Positioned cfg.no_files (m + 1) := by
  have inv' := p.resources.positionFile positioned
  rcases positionFile_spec positioned with ⟨rfl, streamless⟩ |
    ⟨id, s, e, out, errs, held, stream, forwarded, rfl⟩
  · refine ⟨p.resources, p.nodup, fun a mem => ?_, fun j jBelow id held => ?_, p.poll⟩
    · obtain ⟨entry, rest⟩ := p.adopted a mem
      exact ⟨by omega, rest⟩
    · rcases Nat.lt_succ_iff_lt_or_eq.mp jBelow with before | rfl
      · exact p.latest j before id held
      · obtain ⟨s, stream, -⟩ := p.resources.st_ident j below id held
        rw [streamless id held] at stream
        cases stream
  obtain ⟨s', stream', isOpen⟩ := (p.resources.open_iff id).mpr (.inl ⟨m, below, held⟩)
  rw [stream, Option.some.injEq] at stream'
  subst stream'
  have fresh : ∀ a ∈ σ.adoptions, a.stream ≠ id := fun a mem same => by
    obtain ⟨entry, -, heldA, -⟩ := p.adopted a mem
    have := p.resources.held_unique _ (entry.trans below) m below id (same ▸ heldA) held
    omega
  have clean := forward_error_clear (readable m) (uncut m) forwarded
  have moved : ∀ other, ((σ.setOffset id e.pos).setIndicators id e.eof e.error).streams other =
      if other = id then some { s with offset := e.pos, eof := e.eof, error := e.error }
      else σ.streams other := fun other => by
    rw [setIndicators_streams_of (setOffset_streams_of stream e.pos id ▸ if_pos rfl),
      setOffset_streams_of stream]
    split <;> rfl
  refine ⟨inv', ?_, fun a mem => ?_, fun j jBelow id' held' => ?_, p.poll⟩
  · simp only [List.map_append, List.map_singleton]
    refine p.nodup.append (List.nodup_singleton _) (List.disjoint_singleton.mpr fun mem => ?_)
    obtain ⟨a, mem, same⟩ := List.mem_map.mp mem
    exact fresh a mem same
  · rcases List.mem_append.mp mem with mem | new
    · obtain ⟨entry, before, heldA, s', stream', rest⟩ := p.adopted a mem
      exact ⟨by omega, before, heldA, s', by rw [moved, if_neg (fresh a mem)]; exact stream', rest⟩
    · obtain rfl := List.mem_singleton.mp new
      exact ⟨Nat.lt_succ_self _, rfl, held, { s with offset := e.pos, eof := e.eof, error := e.error },
        by rw [moved, if_pos rfl], rfl, isOpen, clean⟩
  · rw [adoptionsOf_append rfl]
    rcases Nat.lt_succ_iff_lt_or_eq.mp jBelow with before | rfl
    · rw [if_neg (by simp only; omega), List.append_nil]
      exact p.latest j before id' held'
    · obtain rfl : id' = id := Option.some.inj (held'.symm.trans held)
      have none : σ.adoptionsOf j = [] := List.filter_eq_nil_iff.mpr fun a mem => by
        have := (p.adopted a mem).1
        simp only [decide_eq_true_eq]
        omega
      exact ⟨_, by rw [none, if_pos rfl, List.nil_append], rfl⟩

theorem Positioned.positionAll {cfg : Config} (p : σ.Positioned cfg.no_files 0) {style : Style}
    {off : Nat} {w : World} :
    ∀ m ≤ cfg.no_files, ∀ σ', Tail.positionAll cfg style off io w m σ = some σ' →
      σ'.Positioned cfg.no_files m
  | 0, _, σ', positioned => by cases positioned; exact p
  | m + 1, within, σ', positioned => by
    obtain ⟨σ'', before, last⟩ := Option.bind_eq_some.mp positioned
    exact (p.positionAll m (by omega) σ'' before).positionFile readable uncut (by omega) last

end Positioning

theorem worldOf_nil (s : Stream) : worldOf [] s = none := by
  unfold worldOf
  split <;> rfl

/-- When polling begins nothing is owed, the streams whose indicator `forward`
left set are the lagging ones, and the first poll may run in any world. -/
theorem Positioned.settled (p : σ.Positioned n n) (last : Option Nat) :
    ({ σ with last := last } : Sys).Settled (eofIn σ) n (fun i => emitted i σ.out) [] := by
  refine ⟨p.resources.congr rfl rfl rfl rfl, fun i _ => ?_,
    fun a mem k adopted => Option.noConfusion ((p.adopted a mem).2.1.symm.trans adopted), fun w _ => ?_⟩
  · refine (List.append_nil _).symm.trans (congrArg _ (List.flatMap_eq_nil_iff.mpr fun a _ => ?_)).symm
    unfold owed
    split <;> simp [worldOf_nil]
  have opened : ∀ a ∈ σ.adoptions, a.stream < σ.nextId := fun a mem => by
    obtain ⟨-, -, -, s, stream, -⟩ := p.adopted a mem
    by_contra unused
    rw [p.resources.fresh _ (by omega)] at stream
    cases stream
  refine ⟨⟨p.nodup, opened, fun a mem => (p.adopted a mem).1, fun j below id held => ?_,
    by simp [p.poll], fun i _ => ?_, fun a mem => ?_, fun a mem k adopted => ?_, fun id lagged => ?_⟩,
    fun j below _ id s held stream lagged _ => ?_, fun _ _ entry => absurd entry (Nat.not_lt_zero _)⟩
  · obtain ⟨a, single, rfl⟩ := p.latest j below id held
    exact ⟨[], a, single, rfl⟩
  · refine (List.append_nil _).symm.trans (congrArg _ (List.flatMap_eq_nil_iff.mpr fun a mem => ?_)).symm
    obtain ⟨-, -, -, s, stream, start, isOpen, -⟩ := p.adopted a (mem_adoptionsOf.mp mem).1
    have world : worldOf ([] ++ [w]) s = some w := by rw [worldOf_open isOpen]; rfl
    exact (drawn_of stream world).trans (by rw [start, List.drop_take, Nat.sub_self, List.take_zero])
  · obtain ⟨-, -, -, s, stream, start, isOpen, error⟩ := p.adopted a mem
    refine ⟨s, w, stream, by rw [worldOf_open isOpen]; rfl, Reading.unread start isOpen error
      fun set => ⟨by simp [eofIn, stream, set], p.poll⟩⟩
  · exact Option.noConfusion ((p.adopted a mem).2.1.symm.trans adopted)
  · show id < σ.nextId
    by_contra unused
    rw [eofIn, p.resources.fresh id (by omega)] at lagged
    cases lagged
  · have stream : σ.streams id = some s := stream
    simpa [eofIn, stream] using lagged

end Sys

/-- In a run of `follow` where `forward` meets no failing read, and from poll to
poll files only grow by appends and no read fails (opens and `fstat`s may fail,
and paths may vanish or name other files), what the poll loop writes for each
entry, headers left out, is the content of each file the entry adopted, in the
order of adoption, from the adoption offset (the offset `forward` left for the
file held when polling began, `0` for the others) up to the file's length at the
poll that dropped it, or at the last poll; but nothing for a file `forward` left
at its end, with its end-of-file indicator set, when the first poll drops it or
is the last.  Each file a poll adopts for an entry is the file the entry's path
names in that poll. -/
theorem follow_emits_adopted_files (cfg : Config) (style : Style) (off : Nat) (io : Nat → Io)
    (w : World) (ws : List World) (σ₀ σ : Sys) (main : σ₀.Resources cfg.no_files none)
    (start : σ₀.poll = 0) (unadopted : σ₀.adoptions = [])
    (readable : ∀ i pos, (io i).getcFails pos = false) (uncut : ∀ i, (io i).reverseCut = none)
    (grows : List.Chain' World.Grows ws) (reliable : ∀ v ∈ ws, ∀ id pos, v.readFails id pos = false)
    (ran : follow cfg style off io w ws σ₀ = some σ) :
    ∃ σ₁, positionAll cfg style off io w cfg.no_files σ₀ = some σ₁ ∧
      (∀ i < cfg.no_files, emitted i σ.out =
        emitted i σ₁.out ++ (σ.adoptionsOf i).flatMap (owed (eofIn σ₁) ws σ)) ∧
      ∀ a ∈ σ.adoptions, ∀ k, a.poll = some k → ∃ s v, σ.streams a.stream = some s ∧
        ws[k]? = some v ∧ v.lookup (σ.files a.entry).file_name = some s.ident := by
  obtain ⟨σ₁, positioned, rfl⟩ := Option.map_eq_some'.mp ran
  have p := Sys.Positioned.positionAll readable uncut
    ⟨main, by simp [unadopted], by simp [unadopted], fun _ below => absurd below (Nat.not_lt_zero _),
      start⟩ _ le_rfl σ₁ positioned
  refine ⟨σ₁, positioned, ?_⟩
  split
  · rename_i quiet
    have none : ∀ i, σ₁.adoptionsOf i = [] := fun i => List.filter_eq_nil_iff.mpr fun a mem _ => by
      obtain ⟨entry, -, held, -⟩ := p.adopted a mem
      simp only [Bool.and_eq_true, Bool.not_eq_eq_eq_not, Bool.not_true, List.any_eq_false,
        List.mem_range, Bool.not_eq_true, Option.not_isSome, Option.isNone_iff_eq_none] at quiet
      rw [quiet.2 a.entry entry] at held
      cases held
    exact ⟨fun i _ => by rw [none, List.flatMap_nil, List.append_nil],
      fun a mem k adopted => Option.noConfusion ((p.adopted a mem).2.1.symm.trans adopted)⟩
  · have settled := (p.settled (some (cfg.no_files - 1))).polls ws (by simpa using grows) reliable
    exact ⟨settled.paid, settled.named⟩

/-- A path renamed away and replaced while bytes are appended to the old file:
the old file is drained before the new one is shown. -/
theorem follow_emits_adopted_files_on_rotation :
    ∃ σ, follow ⟨1, true, false, false⟩ .rlines 10 (fun _ => Io.reliable fun _ => ⟨0, 0⟩)
        (World.single "a" ⟨1, 1⟩ [])
        [World.reliable (fun _ => some ⟨1, 1⟩) (fun x => if x.ino = 1 then [97, 98] else []),
          World.reliable (fun _ => some ⟨1, 2⟩)
            (fun x => if x.ino = 1 then [97, 98, 99] else if x.ino = 2 then [100] else [])]
        (Sys.absent fun _ => "a") = some σ ∧
      ∃ σ₁, positionAll ⟨1, true, false, false⟩ .rlines 10 (fun _ => Io.reliable fun _ => ⟨0, 0⟩)
          (World.single "a" ⟨1, 1⟩ []) 1 (Sys.absent fun _ => "a") = some σ₁ ∧
        (∀ i < 1, emitted i σ.out = emitted i σ₁.out ++ (σ.adoptionsOf i).flatMap (owed (eofIn σ₁)
          [World.reliable (fun _ => some ⟨1, 1⟩) (fun x => if x.ino = 1 then [97, 98] else []),
            World.reliable (fun _ => some ⟨1, 2⟩)
              (fun x => if x.ino = 1 then [97, 98, 99] else if x.ino = 2 then [100] else [])] σ)) ∧
        ∀ a ∈ σ.adoptions, ∀ k, a.poll = some k → ∃ s v, σ.streams a.stream = some s ∧
          [World.reliable (fun _ => some ⟨1, 1⟩) (fun x => if x.ino = 1 then [97, 98] else []),
            World.reliable (fun _ => some ⟨1, 2⟩)
              (fun x => if x.ino = 1 then [97, 98, 99] else if x.ino = 2 then [100] else [])][k]? =
            some v ∧ v.lookup (σ.files a.entry).file_name = some s.ident :=
  ⟨_, rfl, follow_emits_adopted_files ⟨1, true, false, false⟩ .rlines 10
    (fun _ => Io.reliable fun _ => ⟨0, 0⟩) (World.single "a" ⟨1, 1⟩ []) _ _ _
    (Sys.Resources.absent _) rfl rfl (fun _ _ => rfl) (fun _ => rfl)
    (List.chain'_pair.mpr fun x => by simp only [World.reliable]; split_ifs <;> decide)
    (by simp [World.reliable]) rfl⟩

/-- When `forward` leaves a stream at the end of its file, bytes appended before
the first poll, to a file that poll then drops for a rotation, are never
written: `forward`'s copy loop left the end-of-file indicator set, so `show`
reads nothing, and its `clearerr` comes too late. -/
theorem follow_drops_bytes_appended_before_first_poll :
    (follow ⟨1, true, false, false⟩ .fbytes 0 (fun _ => Io.reliable fun _ => ⟨0, 0⟩)
        (World.single "a" ⟨1, 1⟩ [97, 98])
        [World.reliable (fun _ => some ⟨1, 2⟩)
          (fun x => if x.ino = 1 then [97, 98, 99] else if x.ino = 2 then [100] else [])]
        (pollOnce ⟨1, true, false, false⟩ (World.single "a" ⟨1, 1⟩ []) (Sys.absent fun _ => "a"))).map
      (fun σ => emitted 0 σ.out) = some [97, 98, 100] := by
  rfl

end Tail
end Userland
