import Userland.Tail.Follow.Footprint

/-!
# Read errors and truncation

`show` treats a failed read as the end of the file's life: it closes the stream,
sets `fp` to `NULL` and reports the file, standard input included.  Without
`Fflag` the entry is not shown again; with it the next poll that can open the
path starts over at offset `0`.

A stream's offset only moves forward: at the end of a poll with no failed read,
the offset of every stream an entry holds is the larger of its offset before the
poll (`0` for a stream the poll opened) and the length of its file, except for a
stream whose end-of-file indicator was set when the poll began, which `show` does
not read and leaves where it was.  A file truncated in place below the offset
keeps being read from the old offset.
-/

namespace Userland
namespace Tail

variable {n : Nat}

/-! ## Read errors -/

/-- Without `Fflag`, an entry that holds no stream is never shown again. -/
theorem polls_unheld {cfg : Config} (quiet : cfg.Fflag = false) {j : Nat} (ws : List World) :
    ∀ σ : Sys, (σ.files j).fp = none →
      ((polls cfg ws σ).files j).fp = none ∧ emitted j (polls cfg ws σ).out = emitted j σ.out := by
  induction ws with
  | nil => exact fun σ empty => ⟨empty, rfl⟩
  | cons w ws ih =>
    intro σ empty
    have step : ∀ k < cfg.no_files, ∀ σ' : Sys,
        (σ'.files j).fp = none ∧ emitted j σ'.out = emitted j σ.out →
        ((showIfOpen cfg w k σ').files j).fp = none ∧
          emitted j (showIfOpen cfg w k σ').out = emitted j σ.out := by
      rintro k - σ' ⟨empty', same⟩
      by_cases here : k = j
      · subst here
        simp [showIfOpen, empty', same]
      · refine ⟨by rw [(@Sys.footprint_showIfOpen k 0 σ' cfg w).files j (Ne.symm here)]; exact empty',
          ?_⟩
        unfold showIfOpen
        split
        · obtain ⟨more, out, mine⟩ := showFile_writes cfg w k σ'
          rw [out, emitted_append, emitted_of_entry_ne fun o mem => (mine o mem).trans_ne here,
            List.append_nil, same]
        · exact same
    have shown := Sys.forEach_induction step _ le_rfl σ ⟨empty, rfl⟩
    obtain ⟨empty', same⟩ := ih (pollOnce cfg w σ) (by simpa [pollOnce, quiet] using shown.1)
    exact ⟨empty', same.trans (by simpa [pollOnce, quiet] using shown.2)⟩

/-- With `Fflag`, an entry without a stream whose path can be opened and
`fstat`ed adopts a new stream at offset `0`. -/
theorem reopen_unheld {cfg : Config} {w : World} {j : Nat} {σ : Sys} {x : Ident}
    (empty : (σ.files j).fp = none) (opens : w.openFails j = false)
    (named : w.lookup (σ.files j).file_name = some x) (stats : w.fstatFails j = false) :
    ((reopen cfg w j σ).files j).fp = some σ.nextId ∧
      (reopen cfg w j σ).streams σ.nextId = some ⟨x, Sys.lowestFree σ.fds, 0, false, false, none⟩ := by
  simp [reopen, empty, Sys.fopen, opens, named, Sys.fstat, stats]

/-- A read error during `show`, which reads only while the stream's end-of-file
indicator is clear, closes the stream the entry holds, standard input as any
other, after the bytes before the failed read were written; nothing else
changes but the output and `last`.  Without `Fflag` the entry is then never shown
again; with `Fflag` a later poll that can open and `fstat` its path adopts a new
stream at offset `0`. -/
theorem show_read_error_drops_stream :
    (∀ (cfg : Config) (w : World) (i id p : Nat) (s : Stream) (σ : Sys),
      (σ.files i).fp = some id → σ.streams id = some s → s.eof = false → s.offset ≤ p →
      p ≤ (w.content s.ident).length → w.readFails id p = true →
      (∀ q, s.offset ≤ q → q < p → w.readFails id q = false) →
      ∃ more last, showFile cfg w i σ =
          (((({ σ with out := σ.out ++ more, last := last } : Sys).setOffset id p).fclose id).setFile i
            { σ.files i with fp := none }).ierr (σ.files i).file_name ∧
        emitted i more = ((w.content s.ident).drop s.offset).take (p - s.offset)) ∧
    (∀ (cfg : Config) (ws : List World) (σ : Sys) (j : Nat), cfg.Fflag = false →
      (σ.files j).fp = none →
      ((polls cfg ws σ).files j).fp = none ∧ emitted j (polls cfg ws σ).out = emitted j σ.out) ∧
    (∀ (cfg : Config) (w : World) (σ : Sys) (j : Nat) (x : Ident), (σ.files j).fp = none →
      w.openFails j = false → w.lookup (σ.files j).file_name = some x → w.fstatFails j = false →
      ((reopen cfg w j σ).files j).fp = some σ.nextId ∧
        (reopen cfg w j σ).streams σ.nextId =
          some ⟨x, Sys.lowestFree σ.fds, 0, false, false, none⟩) :=
  ⟨fun cfg _ _ _ _ _ _ held stream reading after within fails before =>
    (showFile_error cfg held stream reading after within fails before).imp
      fun _ ⟨last, shown, bytes, _⟩ => ⟨last, shown, bytes⟩,
    fun _ ws σ _ quiet empty => polls_unheld quiet ws σ empty,
    fun _ _ _ _ _ empty opens named stats => reopen_unheld empty opens named stats⟩

/-- A read that fails at offset `3` of a four-byte file whose first two bytes were
shown: `show` writes the third byte and drops the stream. -/
theorem show_read_error_at_third_byte :
    let σ := pollOnce ⟨1, true, false, false⟩ (World.single "a" ⟨1, 1⟩ [97, 98])
      (Sys.absent fun _ => "a")
    ∃ more last, showFile ⟨1, true, false, false⟩
        { World.single "a" ⟨1, 1⟩ [97, 98, 99, 100] with readFails := fun _ pos => pos == 3 } 0 σ =
      (((({ σ with out := σ.out ++ more, last := last } : Sys).setOffset 0 3).fclose 0).setFile 0
        { σ.files 0 with fp := none }).ierr (σ.files 0).file_name ∧
      emitted 0 more = [99] :=
  show_read_error_drops_stream.1 _ _ 0 0 3 ⟨⟨1, 1⟩, 3, 2, false, false, none⟩ _ rfl rfl rfl
    (by decide) (by decide) rfl
    fun q lo hi => by
      dsimp only at lo
      obtain rfl : q = 2 := by omega
      rfl

/-- A read fails once, at offset `3` of a file whose first two bytes were shown
in the poll before: the next poll reopens the file and shows it again from its
first byte, so `a`, `b` and `c` are written twice. -/
theorem follow_shows_again_after_read_error :
    (follow ⟨1, true, false, false⟩ .rlines 10 (fun _ => Io.reliable fun _ => ⟨0, 0⟩)
        (World.single "a" ⟨1, 1⟩ [])
        [World.single "a" ⟨1, 1⟩ [97, 98],
          { World.single "a" ⟨1, 1⟩ [97, 98, 99, 100] with readFails := fun _ pos => pos == 3 },
          World.single "a" ⟨1, 1⟩ [97, 98, 99, 100]]
        (Sys.absent fun _ => "a")).map (fun σ => emitted 0 σ.out) =
      some [97, 98, 99, 97, 98, 99, 100] := by
  rfl

/-! ## Offsets -/

/-- What the reopen step leaves entry `k` holding: the stream it held, untouched,
or the stream it opened in this step, unread and with clear indicators. -/
theorem reopen_held {cfg : Config} {w : World} {k : Nat} {σ : Sys} (inv : σ.Resources n none)
    (below : k < n) {id : Nat} (held : ((reopen cfg w k σ).files k).fp = some id) :
    ((σ.files k).fp = some id ∧ (reopen cfg w k σ).streams id = σ.streams id) ∨
      (σ.nextId ≤ id ∧ ∃ x fd, (reopen cfg w k σ).streams id = some ⟨x, fd, 0, false, false, none⟩) := by
  revert held
  unfold reopen
  split
  · rename_i empty
    split
    · intro held; rw [empty] at held; cases held
    rename_i id' σ' opened
    obtain ⟨x, fd, rfl, made⟩ := Sys.fopen_spec opened
    subst made
    split
    · intro held; simp [empty] at held
    · intro held
      simp only [Sys.adopt_files, Function.update_same, Option.some.injEq] at held
      subst held
      exact .inr ⟨le_rfl, x, fd, by simp⟩
  rename_i fp hk
  have unheld : fp ≠ σ.nextId := fun same => by
    obtain ⟨s, stream, -⟩ := inv.st_ident k below fp hk
    rw [same, inv.fresh _ le_rfl] at stream
    cases stream
  split
  · exact fun held => .inl ⟨held, rfl⟩
  split
  · intro held; rw [Sys.dropStream_fp] at held; cases held
  rename_i ftmp σ' opened
  obtain ⟨x, fd, rfl, made⟩ := Sys.fopen_spec opened
  split
  · intro held; simp [Sys.dropStream_fp] at held
  split
  · intro held
    simp only [Sys.adopt_files, Function.update_same, Option.some.injEq] at held
    subst held
    refine .inr ⟨le_rfl, x, fd, ?_⟩
    have step := (@Sys.footprint_showFile k (σ.nextId + 1) σ' cfg w).trans Sys.footprint_dropStream
    rw [Sys.adopt_streams, step.streams_eq (by rw [made, hk]; simpa using unheld) (Nat.lt_succ_self _),
      made]
    simp
  · intro held
    rw [Sys.fclose_files, made, hk] at held
    refine .inl ⟨hk.trans held, ?_⟩
    obtain rfl := Option.some.inj held
    rw [Sys.fclose_streams, Function.update_noteq unheld, made]
    exact Function.update_noteq unheld _ _

/-- Over the reopen loop of a poll, every stream an entry holds has the offset and
the end-of-file indicator it had before the poll, or was opened by the loop. -/
theorem reopenAll_offsets (cfg : Config) (w : World) (σ : Sys) (inv : σ.Resources n none) :
    ∀ m ≤ n, (forEach (reopen cfg w) m σ).Resources n none ∧
      σ.nextId ≤ (forEach (reopen cfg w) m σ).nextId ∧
      ∀ j < n, ∀ id s, ((forEach (reopen cfg w) m σ).files j).fp = some id →
        (forEach (reopen cfg w) m σ).streams id = some s →
          s.offset = offsetIn σ id ∧ s.eof = eofIn σ id
  | 0, _ => ⟨inv, le_rfl, fun _ _ id s _ stream => by simp_all [offsetIn, eofIn]⟩
  | k + 1, within => by
    obtain ⟨inv', grown, offsets⟩ := reopenAll_offsets cfg w σ inv k (by omega)
    have kBelow : k < n := by omega
    have step := Sys.footprint_reopen cfg w k (forEach (reopen cfg w) k σ)
    refine ⟨inv'.reopen cfg w kBelow, grown.trans step.nextId, fun j jBelow id s held stream => ?_⟩
    by_cases same : j = k
    · subst same
      rcases reopen_held inv' kBelow held with ⟨held', kept⟩ | ⟨fresh, x, fd, opened⟩
      · rw [forEach_succ, kept] at stream
        exact offsets j jBelow id s held' stream
      · rw [forEach_succ, opened, Option.some.injEq] at stream
        subst stream
        simp [offsetIn, eofIn, inv.fresh id (grown.trans fresh)]
    · obtain ⟨files, streams⟩ := step.keeps inv' jBelow kBelow same
      rw [forEach_succ, files] at held
      rw [forEach_succ, streams id held] at stream
      exact offsets j jBelow id s held stream

/-- `show` for entry `m`, when no read fails, leaves entry `m` holding the stream
it held, as `show` leaves it, or holding none; every other entry keeps its stream
untouched. -/
theorem showIfOpen_offsets (cfg : Config) {w : World}
    (reliable : ∀ id pos, w.readFails id pos = false) {σ : Sys} (inv : σ.Resources n none)
    {m : Nat} (below : m < n) :
    ∀ j < n, ∀ id s', ((showIfOpen cfg w m σ).files j).fp = some id →
      (showIfOpen cfg w m σ).streams id = some s' → (σ.files j).fp = some id ∧
        ∃ s, σ.streams id = some s ∧ s' = if j = m then s.shown w else s := by
  intro j jBelow id s' held stream'
  by_cases same : j ≠ m
  · obtain ⟨files, streams⟩ := (@Sys.footprint_showIfOpen m σ.nextId σ cfg w).keeps inv jBelow
      below same
    rw [files] at held
    exact ⟨held, s', by rw [← streams id held]; exact stream', by rw [if_neg same]⟩
  obtain rfl : j = m := not_not.mp same
  rcases hm : (σ.files j).fp with _ | idm
  · rw [show showIfOpen cfg w j σ = σ by simp [showIfOpen, hm], hm] at held
    cases held
  obtain ⟨sm, streamm, -⟩ := inv.st_ident j below idm hm
  rw [show showIfOpen cfg w j σ = showFile cfg w j σ by simp [showIfOpen, hm]] at held stream'
  cases clean : sm.error
  · obtain ⟨more, last, shown, -⟩ := showFile_reliable cfg hm streamm clean (reliable idm)
    rw [shown] at held stream'
    obtain rfl : id = idm := Option.some.inj (held.symm.trans hm)
    simp only [Sys.setIndicators_streams, Sys.setOffset_streams, Function.update_same, streamm,
      Option.map_some', Option.some.injEq] at stream'
    exact ⟨rfl, sm, streamm, by rw [← stream', if_pos rfl]; rfl⟩
  · rcases showFile_cases cfg w j σ with ⟨-, none⟩ | ⟨id', s, out, last, stop, held', stream, ⟨-, kept⟩ | dropped⟩
    · rw [none idm hm] at streamm; cases streamm
    · rw [held', Option.some.injEq] at hm
      subst hm
      rw [stream, Option.some.injEq] at streamm
      subst streamm
      rw [clean] at kept
      cases kept
    · rw [dropped] at held
      simp at held

/-- Over the show loop of a poll with no failed read, the entries already shown
hold their streams as `show` leaves them, or none; the others are untouched. -/
theorem showAll_offsets (cfg : Config) {w : World}
    (reliable : ∀ id pos, w.readFails id pos = false) {σ : Sys} (inv : σ.Resources n none) :
    ∀ m ≤ n, (forEach (showIfOpen cfg w) m σ).Resources n none ∧
      ∀ j < n, ∀ id s', ((forEach (showIfOpen cfg w) m σ).files j).fp = some id →
        (forEach (showIfOpen cfg w) m σ).streams id = some s' → (σ.files j).fp = some id ∧
          ∃ s, σ.streams id = some s ∧ s' = if j < m then s.shown w else s
  | 0, _ => ⟨inv, fun _ _ _ s' held stream => ⟨held, s', stream, rfl⟩⟩
  | m + 1, within => by
    obtain ⟨inv', streams⟩ := showAll_offsets cfg reliable inv m (by omega)
    refine ⟨inv'.showIfOpen cfg w (by omega), fun j jBelow id s'' held stream'' => ?_⟩
    obtain ⟨held', s', stream', shown⟩ :=
      showIfOpen_offsets cfg reliable inv' (show m < n by omega) j jBelow id s'' held stream''
    obtain ⟨held₀, s, stream₀, earlier⟩ := streams j jBelow id s' held' stream'
    refine ⟨held₀, s, stream₀, ?_⟩
    rw [shown, earlier]
    rcases Nat.lt_trichotomy j m with before | rfl | after
    · simp [before, Nat.ne_of_lt before, Nat.lt_succ_of_lt before]
    · simp
    · simp [Nat.ne_of_gt after, show ¬ j < m by omega, show ¬ j < m + 1 by omega]

/-- At the end of a poll in which no read fails, every stream an entry holds has
both indicators clear, and its offset is the larger of its offset before the poll
(`0` for a stream the poll opened) and the length of its file, unless its
end-of-file indicator was set when the poll began: then `show` read nothing and
the offset is where it was.  The offset never moves back, so a file truncated in
place below it is read on from the old offset. -/
theorem pollOnce_offsets (cfg : Config) (w : World) (σ : Sys)
    (inv : σ.Resources cfg.no_files none) (reliable : ∀ id pos, w.readFails id pos = false)
    {j : Nat} (below : j < cfg.no_files) {id : Nat} {s : Stream}
    (held : ((pollOnce cfg w σ).files j).fp = some id) (stream : (pollOnce cfg w σ).streams id = some s) :
    s.offset = (if eofIn σ id then offsetIn σ id else max (offsetIn σ id) (w.content s.ident).length) ∧
      s.eof = false ∧ s.error = false := by
  have reopened : ∀ σ₁ : Sys, σ₁ = (if cfg.Fflag then forEach (reopen cfg w) cfg.no_files σ else σ) →
      σ₁.Resources cfg.no_files none ∧ ∀ j < cfg.no_files, ∀ id s, (σ₁.files j).fp = some id →
        σ₁.streams id = some s → s.offset = offsetIn σ id ∧ s.eof = eofIn σ id := by
    rintro σ₁ rfl
    split
    · exact (reopenAll_offsets cfg w σ inv _ le_rfl).imp_right And.right
    · exact ⟨inv, fun _ _ id s _ stream => by simp [offsetIn, eofIn, stream]⟩
  obtain ⟨inv₁, offsets⟩ := reopened _ rfl
  obtain ⟨-, streams⟩ := showAll_offsets cfg reliable inv₁ _ le_rfl
  simp only [pollOnce] at held stream
  obtain ⟨held₁, s₁, stream₁, shown⟩ := streams j below id s held stream
  rw [if_pos below] at shown
  subst shown
  obtain ⟨offset, eof⟩ := offsets j below id s₁ held₁ stream₁
  refine ⟨?_, rfl, rfl⟩
  rw [Stream.shown_offset, ← offset, ← eof]
  rfl

/-- A file of four bytes, shown to its end, then truncated in place and rewritten
with two: the offset stays at `4`, short of no byte of the new content. -/
theorem pollOnce_offsets_after_truncation :
    let σ := pollOnce ⟨1, true, false, false⟩ (World.single "a" ⟨1, 1⟩ [97, 98, 99, 100])
      (Sys.absent fun _ => "a")
    ((pollOnce ⟨1, true, false, false⟩ (World.single "a" ⟨1, 1⟩ [120, 121]) σ).files 0).fp =
        some 0 ∧
      (pollOnce ⟨1, true, false, false⟩ (World.single "a" ⟨1, 1⟩ [120, 121]) σ).streams 0 =
        some ⟨⟨1, 1⟩, 3, 4, false, false, none⟩ ∧
      (4 = (if eofIn σ 0 then offsetIn σ 0
        else max (offsetIn σ 0) ((World.single "a" ⟨1, 1⟩ [120, 121]).content ⟨1, 1⟩).length) ∧
        false = false ∧ false = false) :=
  ⟨rfl, rfl, pollOnce_offsets ⟨1, true, false, false⟩ (World.single "a" ⟨1, 1⟩ [120, 121])
    (pollOnce ⟨1, true, false, false⟩ (World.single "a" ⟨1, 1⟩ [97, 98, 99, 100])
      (Sys.absent fun _ => "a")) ((Sys.Resources.absent _).pollOnce _) (fun _ _ => rfl)
    Nat.zero_lt_one rfl rfl⟩

/-- The same run through `follow`: after the truncation the stream is still at
offset `4` while the file holds two bytes, and nothing of them was written. -/
theorem follow_offset_stays_after_truncation :
    (follow ⟨1, true, false, false⟩ .rlines 10 (fun _ => Io.reliable fun _ => ⟨0, 0⟩)
        (World.single "a" ⟨1, 1⟩ [])
        [World.single "a" ⟨1, 1⟩ [97, 98, 99, 100], World.single "a" ⟨1, 1⟩ [120, 121]]
        (Sys.absent fun _ => "a")).map (fun σ => ((σ.streams 0).map Stream.offset, emitted 0 σ.out)) =
      some (some 4, [97, 98, 99, 100]) := by
  rfl

/-- The indicator `forward` leaves: a file `a` whose two bytes `forward` copied
grows to four before the first poll, which reads nothing and leaves the offset at
`2`. -/
example :
    (follow ⟨1, false, false, false⟩ .fbytes 0 (fun _ => Io.reliable fun _ => ⟨0, 0⟩)
        (World.single "a" ⟨1, 1⟩ [97, 98]) [World.single "a" ⟨1, 1⟩ [97, 98, 99, 100]]
        (pollOnce ⟨1, true, false, false⟩ (World.single "a" ⟨1, 1⟩ []) (Sys.absent fun _ => "a"))).map
      (fun σ => ((σ.streams 0).map Stream.offset, emitted 0 σ.out)) = some (some 2, [97, 98]) := by
  rfl

/-! ## Following descriptors -/

/-- What polls in the worlds `ws` may do without reopening: create no stream,
open no descriptor, set no error indicator, and drop the stream an entry holds
only if a read of it failed in one of the polls or its error indicator was
set. -/
structure Sys.OpensNothing (ws : List World) (σ σ' : Sys) : Prop where
  /-- No stream is created. -/
  nextId : σ'.nextId = σ.nextId
  /-- Every entry keeps its stream or holds none. -/
  fp : ∀ i, (σ'.files i).fp = (σ.files i).fp ∨ (σ'.files i).fp = none
  /-- An entry keeps a stream whose error indicator is clear and no read of which
  fails. -/
  keeps : ∀ i id, (σ.files i).fp = some id → (∀ s, σ.streams id = some s → s.error = false) →
    (∀ w ∈ ws, ∀ pos, w.readFails id pos = false) → (σ'.files i).fp = some id
  /-- A set error indicator was set before. -/
  errors : ∀ id s', σ'.streams id = some s' → s'.error = true →
    ∃ s, σ.streams id = some s ∧ s.error = true
  /-- No descriptor is opened. -/
  fds : ∀ fd ∈ σ'.fds, fd ∈ σ.fds

namespace Sys.OpensNothing

variable {ws : List World} {σ σ' σ'' : Sys}

theorem refl (ws : List World) (σ : Sys) : σ.OpensNothing ws σ :=
  ⟨rfl, fun _ => .inl rfl, fun _ _ held _ _ => held, fun _ s' stream failed => ⟨s', stream, failed⟩,
    fun _ mem => mem⟩

theorem trans (first : σ.OpensNothing ws σ') (second : σ'.OpensNothing ws σ'') :
    σ.OpensNothing ws σ'' := by
  refine ⟨second.nextId.trans first.nextId, fun i => ?_, fun i id held clean reliable => ?_,
    fun id s'' stream failed => ?_, fun fd mem => first.fds fd (second.fds fd mem)⟩
  · rcases second.fp i with same | none
    · rw [same]; exact first.fp i
    · exact .inr none
  · refine second.keeps i id (first.keeps i id held clean reliable) (fun s' stream' => ?_) reliable
    by_contra failed
    obtain ⟨s, stream, failed'⟩ := first.errors id s' stream' (by simpa using failed)
    rw [clean s stream] at failed'
    cases failed'
  · obtain ⟨s', stream', failed'⟩ := second.errors id s'' stream failed
    exact first.errors id s' stream' failed'

/-- What holds over fewer polls holds over more. -/
theorem mono (step : σ.OpensNothing ws σ') {ws' : List World} (more : ∀ w ∈ ws, w ∈ ws') :
    σ.OpensNothing ws' σ' :=
  ⟨step.nextId, step.fp, fun i id held clean reliable =>
    step.keeps i id held clean fun w mem => reliable w (more w mem), step.errors, step.fds⟩

end Sys.OpensNothing

end Tail
end Userland
