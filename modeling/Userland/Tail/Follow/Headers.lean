import Userland.Tail.Follow.Show

/-!
# Headers in what the poll loop writes

With headers on, `show` writes a header before a byte of a file exactly when
`last` names another file, and then points `last` at the file.  So once `last`
names the file of the last item written (`NULL` before anything is written),
every poll keeps it so, and what the polls write has a header exactly where the
file changes: before a byte of a file whose previous item came from another
file, and nowhere else.  `follow` starts the poll loop in that state when the
final file argument was open, since the positioning loop wrote its header last;
`follow_first_byte_without_header` is a run where it was not.
-/

namespace Userland
namespace Tail

/-! ## Items written after a cursor -/

/-- The entry `last` designates once the items `more` are written after an item
of entry `prev` (`none`: nothing written). -/
def cursor : Option Nat → List Out → Option Nat
  | prev, [] => prev
  | _, o :: more => cursor (some o.entry) more

@[simp] theorem cursor_nil (prev : Option Nat) : cursor prev [] = prev := rfl

@[simp] theorem cursor_cons (prev : Option Nat) (o : Out) (more : List Out) :
    cursor prev (o :: more) = cursor (some o.entry) more := rfl

theorem cursor_append : ∀ (prev : Option Nat) (xs ys : List Out),
    cursor prev (xs ++ ys) = cursor (cursor prev xs) ys
  | _, [], _ => rfl
  | _, _ :: xs, ys => cursor_append _ xs ys

/-- With headers on, the items written after an item of entry `prev`: a byte
follows an item of its own entry, and a header is written only right before a
byte of its entry and only after an item of another entry or at the start. -/
def Headed : Option Nat → List Out → Prop
  | _, [] => True
  | prev, .header i :: .byte j _ :: more => prev ≠ some i ∧ j = i ∧ Headed (some i) more
  | prev, .byte i _ :: more => prev = some i ∧ Headed (some i) more
  | _, .header _ :: _ => False

theorem Headed.append : ∀ {prev : Option Nat} {xs ys : List Out},
    Headed prev xs → Headed (cursor prev xs) ys → Headed prev (xs ++ ys)
  | _, [], _, _, second => second
  | _, .header _ :: .byte _ _ :: _, _, ⟨other, rfl, first⟩, second => ⟨other, rfl, first.append second⟩
  | _, .byte _ _ :: _, _, ⟨rfl, first⟩, second => ⟨rfl, first.append second⟩
  | _, [.header _], _, first, _ => first.elim
  | _, .header _ :: .header _ :: _, _, first, _ => first.elim

example : Headed none [.header 0, .byte 0 97, .byte 0 98, .header 1, .byte 1 99, .header 0, .byte 0 100] :=
  ⟨nofun, rfl, rfl, nofun, rfl, nofun, rfl, trivial⟩

/-! ## From one state to a later one -/

namespace Sys

/-- From `σ` to `σ'` with headers on: `σ'` appended to `σ`'s output items headed
from `σ`'s cursor, and its cursor designates the entry of the last of them. -/
def Heads (σ σ' : Sys) : Prop :=
  ∃ more, σ'.out = σ.out ++ more ∧ Headed σ.last more ∧ σ'.last = cursor σ.last more

variable {σ σ' σ'' : Sys}

theorem Heads.refl (σ : Sys) : σ.Heads σ := ⟨[], by simp, trivial, rfl⟩

theorem Heads.trans (first : σ.Heads σ') (second : σ'.Heads σ'') : σ.Heads σ'' := by
  obtain ⟨more, out, headed, last⟩ := first
  obtain ⟨more', out', headed', last'⟩ := second
  refine ⟨more ++ more', by rw [out', out, List.append_assoc], headed.append (last ▸ headed'), ?_⟩
  rw [last', last, cursor_append]

/-- A step that writes nothing and leaves `last` alone. -/
theorem Heads.frame (first : σ.Heads σ') (out : σ''.out = σ'.out) (last : σ''.last = σ'.last) :
    σ.Heads σ'' := by
  obtain ⟨more, out', headed, last'⟩ := first
  exact ⟨more, out.trans out', headed, last.trans last'⟩

theorem Heads.of_frame (out : σ'.out = σ.out) (last : σ'.last = σ.last) : σ.Heads σ' :=
  (Heads.refl σ).frame out last

theorem fopen_frame {w : World} {i id : Nat} (opened : σ.fopen w i = some (id, σ')) :
    σ'.out = σ.out ∧ σ'.last = σ.last := by
  obtain ⟨x, fd, -, rfl⟩ := fopen_spec opened
  exact ⟨rfl, rfl⟩

@[simp] theorem dropStream_out (i : Nat) : (σ.dropStream i).out = σ.out := by
  unfold dropStream; split <;> rfl

@[simp] theorem dropStream_last (i : Nat) : (σ.dropStream i).last = σ.last := by
  unfold dropStream; split <;> rfl

end Sys

/-! ## The steps of a poll -/

theorem putByte_heads (i : Nat) (b : Byte) (σ : Sys) : σ.Heads (putByte true i b σ) := by
  unfold putByte
  split
  · next same => exact ⟨[.byte i b], rfl, ⟨same, trivial⟩, by simpa using same⟩
  · next other => exact ⟨[.header i, .byte i b], by simp, ⟨other, rfl, trivial⟩, rfl⟩

theorem showLoop_heads (fails : Nat → Bool) (i : Nat) :
    ∀ (pos : Nat) (rest : List Byte) (σ : Sys), σ.Heads (showLoop true fails i pos rest σ).1
  | _, [], σ => .refl σ
  | pos, b :: rest, σ => by
    unfold showLoop
    split
    · exact .refl σ
    · exact (putByte_heads i b σ).trans (showLoop_heads fails i (pos + 1) rest _)

section Steps

variable (cfg : Config) (headers : cfg.headers = true) (w : World)
include headers

theorem showFile_heads (i : Nat) (σ : Sys) : σ.Heads (showFile cfg w i σ) := by
  rcases held : (σ.files i).fp with _ | id
  · simpa [showFile, held] using Sys.Heads.refl σ
  rcases stream : σ.streams id with _ | s
  · simpa [showFile, held, stream] using Sys.Heads.refl σ
  have loop : σ.Heads (if s.eof then (σ, s.offset, false)
      else showLoop true (w.readFails id) i s.offset ((w.content s.ident).drop s.offset) σ).1 := by
    split
    · exact .refl σ
    · exact showLoop_heads (w.readFails id) i s.offset _ σ
  rcases run : (if s.eof then (σ, s.offset, false)
      else showLoop true (w.readFails id) i s.offset ((w.content s.ident).drop s.offset) σ) with
    ⟨σ', stop, err⟩
  rw [run] at loop
  simp only [showFile, held, stream, headers, run]
  split
  · exact loop.frame rfl rfl
  · exact loop.frame rfl rfl

theorem reopen_heads (i : Nat) (σ : Sys) : σ.Heads (reopen cfg w i σ) := by
  unfold reopen
  rcases held : (σ.files i).fp with _ | fp <;> dsimp only
  · rcases opened : σ.fopen w i with _ | ⟨id, σ'⟩ <;> dsimp only
    · exact .refl σ
    obtain ⟨out, last⟩ := Sys.fopen_frame opened
    split
    · exact Sys.Heads.of_frame (by simp [out]) (by simp [last])
    · exact Sys.Heads.of_frame (by simp [out]) (by simp [last])
  split
  · exact .refl σ
  rcases opened : σ.fopen w i with _ | ⟨ftmp, σ'⟩ <;> dsimp only
  · have reported : σ.Heads (if w.openFails i then σ.ierr (σ.files i).file_name else σ) := by
      split <;> [exact Sys.Heads.of_frame rfl rfl; exact .refl σ]
    exact (reported.trans (showFile_heads cfg headers w i _)).frame (by simp) (by simp)
  obtain ⟨out, last⟩ := Sys.fopen_frame opened
  have probed : σ.Heads σ' := Sys.Heads.of_frame out last
  split
  · exact ((probed.trans (Sys.Heads.of_frame rfl rfl)).trans
      (showFile_heads cfg headers w i (σ'.ierr (σ'.files i).file_name))).frame (by simp) (by simp)
  split
  · exact (probed.trans (showFile_heads cfg headers w i _)).frame (by simp) (by simp)
  · exact probed.frame (by simp) (by simp)

/-- Every poll keeps the cursor on the last item written and heads what it
writes. -/
theorem pollOnce_heads (σ : Sys) : σ.Heads (pollOnce cfg w σ) := by
  have reopened : σ.Heads (if cfg.Fflag then forEach (reopen cfg w) cfg.no_files σ else σ) := by
    split
    · exact @Sys.forEach_induction _ σ.Heads (reopen cfg w) cfg.no_files
        (fun i _ σ' before => before.trans (reopen_heads cfg headers w i σ')) _ le_rfl σ (.refl σ)
    · exact .refl σ
  have shown := @Sys.forEach_induction _ σ.Heads (showIfOpen cfg w) cfg.no_files
    (fun i _ σ' before => before.trans (by
      unfold showIfOpen
      split
      · exact showFile_heads cfg headers w i σ'
      · exact .refl σ')) _ le_rfl _ reopened
  exact shown.frame rfl rfl

end Steps

theorem polls_heads (cfg : Config) (headers : cfg.headers = true) :
    ∀ (ws : List World) (σ : Sys), σ.Heads (polls cfg ws σ)
  | [], σ => .refl σ
  | w :: ws, σ => (pollOnce_heads cfg headers w σ).trans (polls_heads cfg headers ws _)

/-! ## `follow` -/

theorem cursor_bytes (i : Nat) : ∀ bytes : List Byte, cursor (some i) (bytes.map (Out.byte i)) = some i
  | [] => rfl
  | _ :: bytes => cursor_bytes i bytes

section Positioning

variable {cfg : Config} {style : Style} {off : Nat} {io : Nat → Io} {w : World}

/-- The positioning of one entry moves offsets and writes, and keeps every entry
and every stream. -/
theorem positionFile_keeps {i : Nat} {σ σ' : Sys} (positioned : positionFile cfg style off io w i σ = some σ') :
    σ'.files = σ.files ∧ ∀ id, (σ'.streams id).isSome = (σ.streams id).isSome := by
  rcases positionFile_spec positioned with ⟨rfl, -⟩ | ⟨id, s, e, out, errs, -, -, -, rfl⟩
  · exact ⟨rfl, fun _ => rfl⟩
  · refine ⟨rfl, fun other => ?_⟩
    simp only [Sys.setIndicators_streams, Sys.setOffset_streams]
    by_cases same : other = id
    · subst same; simp
    · simp [Function.update_noteq same]

theorem positionAll_keeps {σ : Sys} :
    ∀ m σ', positionAll cfg style off io w m σ = some σ' →
      σ'.files = σ.files ∧ ∀ id, (σ'.streams id).isSome = (σ.streams id).isSome
  | 0, _, positioned => by cases positioned; exact ⟨rfl, fun _ => rfl⟩
  | m + 1, σ', positioned => by
    obtain ⟨σ'', before, last⟩ := Option.bind_eq_some.mp positioned
    obtain ⟨files, streams⟩ := positionAll_keeps m σ'' before
    obtain ⟨files', streams'⟩ := positionFile_keeps last
    exact ⟨files'.trans files, fun id => (streams' id).trans (streams id)⟩

/-- With headers on, positioning an entry with a stream writes its header and
then only its bytes, so it writes the last item. -/
theorem positionFile_cursor (headers : cfg.headers = true) {i id : Nat} {σ σ' : Sys}
    (held : (σ.files i).fp = some id) (stream : (σ.streams id).isSome)
    (positioned : positionFile cfg style off io w i σ = some σ') : cursor none σ'.out = some i := by
  obtain ⟨s, stream⟩ := Option.isSome_iff_exists.mp stream
  simp only [positionFile, held, stream, headers, if_true] at positioned
  obtain ⟨e, -, kept⟩ := Option.bind_eq_some.mp positioned
  split at kept
  · cases kept
  · cases kept
    simp [cursor_append, cursor_bytes]

end Positioning

/-- With headers on and the final file argument open when `follow` starts, the
positioning loop writes an item of the final entry last and `last` is set to it,
so from then on, in every run, whatever happens to the files, their reads and
their reopening: what the polls write has a header before a byte of a file
exactly when the item before it came from another file, and `last` designates the
entry of the last item written. -/
theorem follow_writes_headers_when_final_file_open (cfg : Config) (headers : cfg.headers = true)
    (files : 0 < cfg.no_files) (style : Style) (off : Nat) (io : Nat → Io) (w : World)
    (ws : List World) {σ₀ σ : Sys} {id : Nat} (final : (σ₀.files (cfg.no_files - 1)).fp = some id)
    (stream : (σ₀.streams id).isSome) (ran : follow cfg style off io w ws σ₀ = some σ) :
    ∃ σ₁ more, positionAll cfg style off io w cfg.no_files σ₀ = some σ₁ ∧
      cursor none σ₁.out = some (cfg.no_files - 1) ∧ σ.out = σ₁.out ++ more ∧
      Headed (some (cfg.no_files - 1)) more ∧ σ.last = cursor none σ.out := by
  obtain ⟨σ₁, positioned, rfl⟩ := Option.map_eq_some'.mp ran
  obtain ⟨n, hn⟩ : ∃ n, cfg.no_files = n + 1 := ⟨cfg.no_files - 1, by omega⟩
  have positioned' := positioned
  rw [hn] at positioned'
  obtain ⟨σ₂, before, last⟩ := Option.bind_eq_some.mp positioned'
  obtain ⟨files₂, streams₂⟩ := positionAll_keeps n σ₂ before
  have held : (σ₂.files n).fp = some id := by rw [files₂, ← final, hn, Nat.add_sub_cancel]
  have written := positionFile_cursor headers held (by rw [streams₂]; exact stream) last
  have open_final : ((List.range cfg.no_files).any fun i => (σ₁.files i).fp.isSome) = true := by
    rw [List.any_eq_true]
    refine ⟨n, List.mem_range.mpr (by omega), ?_⟩
    rw [(positionFile_keeps last).1, held]
    rfl
  obtain ⟨more, out, headed, cursor_last⟩ :=
    polls_heads cfg headers ws { σ₁ with last := some (cfg.no_files - 1) }
  refine ⟨σ₁, more, positioned, by rw [written, hn, Nat.add_sub_cancel], ?_, headed, ?_⟩
  · simp only [open_final, Bool.not_true, Bool.and_false, Bool.false_eq_true, if_false]
    exact out
  · simp only [open_final, Bool.not_true, Bool.and_false, Bool.false_eq_true, if_false]
    rw [cursor_last, out, cursor_append, written, hn, Nat.add_sub_cancel]

/-- Files `a` and `b`, each one byte long, or grown by one more. -/
def twoFiles (grown : Bool) : World :=
  World.reliable (fun p => if p = "a" then some ⟨1, 1⟩ else if p = "b" then some ⟨1, 2⟩ else none)
    fun x => (if x = ⟨1, 1⟩ then [97] else [98]) ++ if grown then [120] else []

/-- Both files opened by a poll with `Fflag`, then followed without it while both
grow. -/
theorem follow_writes_headers_when_final_file_open_two_files :
    let σ₀ := pollOnce ⟨2, true, false, false⟩ (twoFiles false) (Sys.absent fun i => if i = 0 then "a" else "b")
    (⟨2, false, false, false⟩ : Config).headers = true ∧ 0 < 2 ∧ (σ₀.files (2 - 1)).fp = some 1 ∧
      (σ₀.streams 1).isSome ∧
      ∃ σ, follow ⟨2, false, false, false⟩ .fbytes 0 (fun _ => Io.reliable fun _ => ⟨0, 0⟩) (twoFiles false)
          [twoFiles true] σ₀ = some σ ∧
        ∃ σ₁ more, positionAll ⟨2, false, false, false⟩ .fbytes 0 (fun _ => Io.reliable fun _ => ⟨0, 0⟩)
            (twoFiles false) 2 σ₀ = some σ₁ ∧
          cursor none σ₁.out = some (2 - 1) ∧ σ.out = σ₁.out ++ more ∧ Headed (some (2 - 1)) more ∧
          σ.last = cursor none σ.out :=
  ⟨rfl, by decide, by decide, rfl, _, rfl,
    @follow_writes_headers_when_final_file_open ⟨2, false, false, false⟩ rfl (by decide) .fbytes 0
      (fun _ => Io.reliable fun _ => ⟨0, 0⟩) (twoFiles false) [twoFiles true] _ _ 1 (by decide) rfl rfl⟩

end Tail
end Userland
