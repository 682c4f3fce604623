import Userland.Tail.Forward
import Mathlib.Data.List.DropRight

/-!
# What `forward` writes from the start of a stream

On a stream that no call fails on, freshly opened at offset 0 of an unchanged
content `s`, each style of `forward` writes a suffix of `s`.  `FBYTES` drops the
first `N` bytes, whether it seeks a regular file or reads any other stream byte
by byte, so the two paths agree; `FLINES` drops everything up to the `N`-th
newline; `RBYTES` on a regular file keeps the last `N` bytes; and the reverse
styles with `N = 0` write nothing, through a seek or by draining the stream.
-/

namespace Userland
namespace Tail

/-! ## Lines -/

/-- The content after its `n`-th newline, empty when it has fewer. -/
def afterNewlines : Nat → List Byte → List Byte
  | 0, s => s
  | n + 1, s => afterNewlines n ((s.dropWhile (· ≠ newline)).drop 1)

@[simp] theorem afterNewlines_nil : ∀ n, afterNewlines n [] = []
  | 0 => rfl
  | n + 1 => afterNewlines_nil n

theorem afterNewlines_cons_of_ne {b : Byte} (other : b ≠ newline) (n : Nat) (s : List Byte) :
    afterNewlines (n + 1) (b :: s) = afterNewlines (n + 1) s := by
  simp [afterNewlines, List.dropWhile_cons, other]

theorem afterNewlines_newline (n : Nat) (s : List Byte) :
    afterNewlines (n + 1) (newline :: s) = afterNewlines n s := by
  simp [afterNewlines, List.dropWhile_cons]

example : afterNewlines 2 [97, 10, 98, 10, 99] = [99] := by decide

/-! ## The reading loops on a reliable stream -/

section Loops

variable (windows : Nat → Window)

theorem copyLoop_reliable : ∀ (pos : Nat) (rest : List Byte),
    copyLoop (Io.reliable windows) pos rest = (rest, pos + rest.length, false)
  | _, [] => rfl
  | pos, b :: rest => by
    simp only [copyLoop, Io.reliable_getcFails, Bool.false_eq_true, if_false,
      copyLoop_reliable (pos + 1) rest, List.length_cons, Prod.mk.injEq, true_and, and_true]
    omega

theorem skipBytes_reliable : ∀ (off pos : Nat) (rest : List Byte),
    skipBytes (Io.reliable windows) off pos rest = some (pos + min off rest.length)
  | 0, pos, _ => by simp [skipBytes]
  | _ + 1, pos, [] => by simp [skipBytes]
  | off + 1, pos, _ :: rest => by
    simp only [skipBytes, Io.reliable_getcFails, Bool.false_eq_true, if_false,
      skipBytes_reliable off (pos + 1) rest, List.length_cons, Option.some.injEq]
    omega

/-- The `FLINES` loop stops just after the `off`-th newline, or at the end. -/
theorem skipLines_reliable : ∀ (rest : List Byte) (off pos : Nat), off ≠ 0 →
    ∃ k, skipLines (Io.reliable windows) off pos rest = some (pos + k) ∧
      rest.drop k = afterNewlines off rest
  | [], _, pos, _ => ⟨0, by simp [skipLines]⟩
  | b :: rest, off, pos, counting => by
    obtain ⟨n, rfl⟩ : ∃ n, off = n + 1 := ⟨off - 1, by omega⟩
    by_cases ends : b = newline
    · subst ends
      by_cases last : n = 0
      · subst last
        exact ⟨1, by simp [skipLines], by simp [afterNewlines_newline, afterNewlines]⟩
      · obtain ⟨k, skips, after⟩ := skipLines_reliable rest n (pos + 1) last
        refine ⟨k + 1, ?_, by rw [afterNewlines_newline, List.drop_succ_cons, after]⟩
        simp only [skipLines, Io.reliable_getcFails, Bool.false_eq_true, if_false,
          examine_newline (show n + 1 ≠ 1 by omega), Nat.add_sub_cancel, skips, Option.some.injEq]
        omega
    · obtain ⟨k, skips, after⟩ := skipLines_reliable rest (n + 1) (pos + 1) counting
      refine ⟨k + 1, ?_, by rw [afterNewlines_cons_of_ne ends, List.drop_succ_cons, after]⟩
      simp only [skipLines, Io.reliable_getcFails, Bool.false_eq_true, if_false, examine_of_ne ends, skips,
        Option.some.injEq]
      omega

theorem drain_reliable (s : List Byte) :
    drain (Io.reliable windows) s 0 = .proceed (Effects.start s.length) := by
  simp [drain, copyLoop_reliable]

/-- Positioned at `k` with nothing written, `forward` writes the content from `k` on. -/
theorem forward_of_start {st : Stat} {s : List Byte} {pos : Nat} {style : Style} {off k : Nat}
    (positioned : position (Io.reliable windows) st s pos style off = .proceed (Effects.start k)) :
    (forward (Io.reliable windows) st s pos style off).map Effects.out = some (s.drop k) := by
  simp [forward, positioned, copyLoop_reliable, Effects.start]

end Loops

/-! ## Where each style positions the stream -/

section Styles

variable {windows : Nat → Window} {st : Stat} {s : List Byte}

theorem position_fbytes_seek (regular : st.isReg = true) (sized : st.size = s.length)
    (nonempty : 0 < s.length) (N : Nat) :
    position (Io.reliable windows) st s 0 .fbytes N = .proceed (Effects.start (min N s.length)) := by
  by_cases zero : N = 0
  · simp [position, zero]
  · simp [position, zero, regular, sized, nonempty, fseeko]

theorem position_fbytes_getc (other : ¬(st.isReg = true ∧ 0 < st.size)) (N : Nat) :
    position (Io.reliable windows) st s 0 .fbytes N = .proceed (Effects.start (min N s.length)) := by
  by_cases zero : N = 0
  · simp [position, zero]
  · simp [position, zero, other, skipBytes_reliable]

theorem position_flines (st : Stat) (N : Nat) :
    ∃ k, position (Io.reliable windows) st s 0 .flines N = .proceed (Effects.start k) ∧
      s.drop k = afterNewlines N s := by
  by_cases zero : N = 0
  · exact ⟨0, by simp [position, zero], by simp [zero, afterNewlines]⟩
  · obtain ⟨k, skips, after⟩ := skipLines_reliable windows s N 0 zero
    exact ⟨k, by simp [position, zero, skips], after⟩

theorem position_rbytes (regular : st.isReg = true) (sized : st.size = s.length)
    (nonempty : 0 < s.length) (N : Nat) :
    position (Io.reliable windows) st s 0 .rbytes N = .proceed (Effects.start (s.length - N)) := by
  by_cases fits : N ≤ s.length
  · simp [position, regular, sized, nonempty, fits, fseeko, fromEnd]
  · simp [position, regular, sized, nonempty, fits, show s.length - N = 0 by omega]

theorem position_reverse_zero (st : Stat) {style : Style} (reverse : style = .rbytes ∨ style = .rlines) :
    position (Io.reliable windows) st s 0 style 0 = .proceed (Effects.start s.length) := by
  rcases reverse with rfl | rfl <;> by_cases seek : st.isReg = true ∧ 0 < st.size <;>
    simp [position, seek, fseeko, fromEnd, drain_reliable]

end Styles

/-- From offset 0 of an unchanged content `s` and with no failing call, `forward`
writes: for `FBYTES`, `s` without its first `min N |s|` bytes, through the seek of
a regular non-empty file and through the `getc` loop of any other stream alike;
for `FLINES`, what follows the `N`-th newline; for `RBYTES` on a regular non-empty
file, the last `min N |s|` bytes; and for `RBYTES` and `RLINES` with `N = 0`,
nothing, whatever the stream. -/
theorem forward_writes_suffix (windows : Nat → Window) (s : List Byte) (N : Nat) :
    (∀ st : Stat, st.isReg = true → st.size = s.length → 0 < s.length →
      (forward (Io.reliable windows) st s 0 .fbytes N).map Effects.out = some (s.drop (min N s.length))) ∧
    (∀ st : Stat, ¬(st.isReg = true ∧ 0 < st.size) →
      (forward (Io.reliable windows) st s 0 .fbytes N).map Effects.out = some (s.drop (min N s.length))) ∧
    (∀ st : Stat, (forward (Io.reliable windows) st s 0 .flines N).map Effects.out = some (afterNewlines N s)) ∧
    (∀ st : Stat, st.isReg = true → st.size = s.length → 0 < s.length →
      (forward (Io.reliable windows) st s 0 .rbytes N).map Effects.out = some (s.rtake N)) ∧
    (N = 0 → ∀ st : Stat,
      (forward (Io.reliable windows) st s 0 .rbytes N).map Effects.out = some [] ∧
      (forward (Io.reliable windows) st s 0 .rlines N).map Effects.out = some []) := by
  refine ⟨fun st regular sized nonempty =>
      forward_of_start windows (position_fbytes_seek regular sized nonempty N),
    fun st other => forward_of_start windows (position_fbytes_getc other N), fun st => ?_,
    fun st regular sized nonempty => forward_of_start windows (position_rbytes regular sized nonempty N),
    ?_⟩
  · obtain ⟨k, positioned, after⟩ := position_flines st N
    rw [forward_of_start windows positioned, after]
  · rintro rfl st
    rw [forward_of_start windows (position_reverse_zero st (.inl rfl)),
      forward_of_start windows (position_reverse_zero st (.inr rfl)), List.drop_length]
    exact ⟨rfl, rfl⟩

theorem forward_writes_suffix_three_lines :
    (forward (Io.reliable fun _ => ⟨0, 5⟩) ⟨⟨0, 0⟩, 1, 5, true⟩ [97, 10, 98, 10, 99] 0 .fbytes 2).map
        Effects.out = some [98, 10, 99] ∧
    (forward (Io.reliable fun _ => ⟨0, 5⟩) ⟨⟨0, 0⟩, 1, 0, false⟩ [97, 10, 98, 10, 99] 0 .fbytes 2).map
        Effects.out = some [98, 10, 99] ∧
    (forward (Io.reliable fun _ => ⟨0, 5⟩) ⟨⟨0, 0⟩, 1, 0, false⟩ [97, 10, 98, 10, 99] 0 .flines 2).map
        Effects.out = some [99] ∧
    (forward (Io.reliable fun _ => ⟨0, 5⟩) ⟨⟨0, 0⟩, 1, 5, true⟩ [97, 10, 98, 10, 99] 0 .rbytes 2).map
        Effects.out = some [10, 99] ∧
    (forward (Io.reliable fun _ => ⟨0, 5⟩) ⟨⟨0, 0⟩, 1, 0, false⟩ [97, 10, 98, 10, 99] 0 .rlines 0).map
        Effects.out = some [] :=
  have two := forward_writes_suffix (fun _ => ⟨0, 5⟩) [97, 10, 98, 10, 99] 2
  ⟨two.1 _ rfl rfl (by decide), two.2.1 _ (by decide), (two.2.2.1 _).trans (by decide),
    two.2.2.2.1 _ rfl rfl (by decide),
    ((forward_writes_suffix (fun _ => ⟨0, 5⟩) [97, 10, 98, 10, 99] 0).2.2.2.2 rfl _).2⟩

end Tail
end Userland
