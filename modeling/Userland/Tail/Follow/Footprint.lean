import Userland.Tail.Follow.Show

/-!
# The footprint of one entry's step

A step of the poll loop for entry `k`, the reopen step or `show`, may change
entry `k`, the stream it holds and the streams it opens, and no other entry or
stream.  `Footprint k bound σ σ'` says so, with `bound` the first id the step
may open.  Footprints compose, so each step is checked one operation at a time;
with the resource invariant they give that every other entry keeps its
`file_info_t` and its stream.
-/

namespace Userland
namespace Tail
namespace Sys

/-- From `σ` to `σ'` a step of entry `k` changed no other entry, and of the
streams only the one `k` held and those from `bound` on. -/
structure Footprint (k bound : Nat) (σ σ' : Sys) : Prop where
  /-- The other entries are kept. -/
  files : ∀ j ≠ k, σ'.files j = σ.files j
  /-- Entry `k` holds its old stream, one from `bound` on, or none. -/
  held : ∀ id, (σ'.files k).fp = some id → (σ.files k).fp = some id ∨ bound ≤ id
  /-- Only `k`'s stream and those from `bound` on change. -/
  streams : ∀ id, σ'.streams id ≠ σ.streams id → (σ.files k).fp = some id ∨ bound ≤ id
  /-- No id is given back. -/
  nextId : σ.nextId ≤ σ'.nextId

variable {k bound : Nat} {σ σ' σ'' : Sys}

theorem Footprint.refl (k bound : Nat) (σ : Sys) : σ.Footprint k bound σ :=
  ⟨fun _ _ => rfl, fun _ held => .inl held, fun _ changed => absurd rfl changed, le_rfl⟩

theorem Footprint.trans (first : σ.Footprint k bound σ') (second : σ'.Footprint k bound σ'') :
    σ.Footprint k bound σ'' := by
  refine ⟨fun j other => (second.files j other).trans (first.files j other), fun id held => ?_,
    fun id changed => ?_, first.nextId.trans second.nextId⟩
  · rcases second.held id held with held' | fresh
    · exact first.held id held'
    · exact .inr fresh
  · by_cases kept : σ'.streams id = σ.streams id
    · rcases second.streams id fun same => changed (same.trans kept) with held' | fresh
      · exact first.held id held'
      · exact .inr fresh
    · exact first.streams id kept

/-- A step that changes neither the entries nor the streams nor `nextId`. -/
theorem Footprint.of_eq (files : σ'.files = σ.files) (streams : σ'.streams = σ.streams)
    (nextId : σ'.nextId = σ.nextId) : σ.Footprint k bound σ' :=
  ⟨fun _ _ => by rw [files], fun _ held => .inl (files ▸ held),
    fun _ changed => absurd (by rw [streams]) changed, nextId.ge⟩

/-- A step that changes one stream's record, one `k` holds or may open. -/
theorem Footprint.update {id : Nat} (mine : (σ.files k).fp = some id ∨ bound ≤ id)
    {v : Option Stream} (files : σ'.files = σ.files)
    (streams : σ'.streams = Function.update σ.streams id v) (nextId : σ'.nextId = σ.nextId) :
    σ.Footprint k bound σ' := by
  refine ⟨fun _ _ => by rw [files], fun _ held => .inl (files ▸ held), fun other changed => ?_,
    nextId.ge⟩
  by_cases same : other = id
  · exact same ▸ mine
  · rw [streams, Function.update_noteq same] at changed
    exact absurd rfl changed

theorem footprint_setOffset {id : Nat} (mine : (σ.files k).fp = some id ∨ bound ≤ id)
    (pos : Nat) : σ.Footprint k bound (σ.setOffset id pos) :=
  Footprint.update mine rfl rfl rfl

theorem footprint_setIndicators {id : Nat} (mine : (σ.files k).fp = some id ∨ bound ≤ id)
    (eof error : Bool) : σ.Footprint k bound (σ.setIndicators id eof error) :=
  Footprint.update mine rfl rfl rfl

theorem footprint_fclose {id : Nat} (mine : (σ.files k).fp = some id ∨ bound ≤ id) :
    σ.Footprint k bound (σ.fclose id) :=
  Footprint.update mine rfl rfl rfl

theorem footprint_ierr (name : String) : σ.Footprint k bound (σ.ierr name) :=
  Footprint.of_eq rfl rfl rfl

theorem footprint_output (out : List Out) (last : Option Nat) :
    σ.Footprint k bound { σ with out := out, last := last } :=
  Footprint.of_eq rfl rfl rfl

theorem footprint_unhold : σ.Footprint k bound (σ.setFile k { σ.files k with fp := none }) :=
  ⟨fun _ other => Function.update_noteq other _ _, fun _ held => by simp at held,
    fun _ changed => absurd rfl changed, le_rfl⟩

theorem footprint_fopen {w : World} {id : Nat} (opened : σ.fopen w k = some (id, σ'))
    (below : bound ≤ σ.nextId) : σ.Footprint k bound σ' ∧ id = σ.nextId := by
  obtain ⟨x, fd, rfl, rfl⟩ := fopen_spec opened
  refine ⟨⟨fun _ _ => rfl, fun _ held => .inl held, fun other changed => .inr ?_, Nat.le_succ _⟩,
    rfl⟩
  by_contra short
  exact changed (Function.update_noteq (by omega) _ _)

theorem footprint_adopt {id start : Nat} {st : Stat} (fresh : bound ≤ id) :
    σ.Footprint k bound (σ.adopt k id start st) :=
  ⟨fun _ other => Function.update_noteq other _ _,
    fun _ held => .inr (by simp only [adopt_files, Function.update_same] at held; cases held; exact fresh),
    fun _ changed => absurd rfl changed, le_rfl⟩

theorem footprint_dropStream : σ.Footprint k bound (σ.dropStream k) := by
  unfold Sys.dropStream
  split
  · exact .refl ..
  · exact (footprint_fclose (.inl ‹_›)).trans footprint_unhold

/-- `show` for entry `k` moves the stream `k` holds and clears its indicators, or
closes it and sets `k`'s `fp` to `NULL`. -/
theorem footprint_showFile (cfg : Config) (w : World) :
    σ.Footprint k bound (Tail.showFile cfg w k σ) := by
  rcases showFile_cases cfg w k σ with ⟨same, -⟩ | ⟨id, s, out, last, stop, held, -, shown⟩
  · rw [same]; exact .refl ..
  have moved : σ.Footprint k bound (({ σ with out := out, last := last } : Sys).setOffset id stop) :=
    (footprint_output out last).trans (footprint_setOffset (by exact .inl held) stop)
  rcases shown with ⟨kept, -⟩ | dropped
  · rw [kept]; exact moved.trans (footprint_setIndicators (by exact .inl held) false false)
  · rw [dropped]
    exact ((moved.trans (footprint_fclose (by exact .inl held))).trans footprint_unhold).trans
      (footprint_ierr _)

theorem footprint_showIfOpen (cfg : Config) (w : World) :
    σ.Footprint k bound (Tail.showIfOpen cfg w k σ) := by
  unfold Tail.showIfOpen
  split
  · exact footprint_showFile cfg w
  · exact .refl ..

/-- The reopen step for entry `k` touches entry `k`, its stream, and the probe it
opens. -/
theorem footprint_reopen (cfg : Config) (w : World) (k : Nat) (σ : Sys) :
    σ.Footprint k σ.nextId (Tail.reopen cfg w k σ) := by
  unfold Tail.reopen
  rcases held : (σ.files k).fp with _ | fp <;> dsimp only
  · rcases opened : σ.fopen w k with _ | ⟨id, σ'⟩ <;> dsimp only
    · exact .refl ..
    obtain ⟨first, rfl⟩ := footprint_fopen opened le_rfl
    split
    · exact first.trans (footprint_fclose (.inr le_rfl))
    · exact first.trans (footprint_adopt le_rfl)
  · split
    · exact .refl ..
    rcases opened : σ.fopen w k with _ | ⟨ftmp, σ'⟩ <;> dsimp only
    · refine Footprint.trans ?_ ((footprint_showFile cfg w).trans footprint_dropStream)
      split
      · exact footprint_ierr _
      · exact .refl ..
    obtain ⟨first, rfl⟩ := footprint_fopen opened le_rfl
    split
    · exact (((first.trans (footprint_ierr _)).trans (footprint_showFile cfg w)).trans
        footprint_dropStream).trans (footprint_fclose (.inr le_rfl))
    · split
      · exact ((first.trans (footprint_showFile cfg w)).trans footprint_dropStream).trans
          (footprint_adopt le_rfl)
      · exact first.trans (footprint_fclose (.inr le_rfl))

/-- A stream that entry `k` does not hold and that is older than the step is kept. -/
theorem Footprint.streams_eq (step : σ.Footprint k bound σ') {id : Nat}
    (unheld : (σ.files k).fp ≠ some id) (older : id < bound) : σ'.streams id = σ.streams id := by
  by_contra changed
  rcases step.streams id changed with held | fresh
  · exact unheld held
  · omega

/-- With the resource invariant, a step of entry `k` keeps every other entry and
the stream it holds. -/
theorem Footprint.keeps {n : Nat} {probe : Option Nat} (step : σ.Footprint k σ.nextId σ')
    (inv : σ.Resources n probe) {j : Nat} (jBelow : j < n) (kBelow : k < n) (other : j ≠ k) :
    σ'.files j = σ.files j ∧ ∀ id, (σ.files j).fp = some id → σ'.streams id = σ.streams id := by
  refine ⟨step.files j other, fun id held => ?_⟩
  by_contra changed
  rcases step.streams id changed with heldK | fresh
  · exact other (inv.held_unique j jBelow k kBelow id held heldK)
  · obtain ⟨s, stream, -⟩ := inv.st_ident j jBelow id held
    rw [inv.fresh id fresh] at stream
    cases stream

end Sys
end Tail
end Userland
