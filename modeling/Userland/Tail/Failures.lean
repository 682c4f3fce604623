import Userland.Tail.Positioning

/-!
# Failing calls only cut `forward` short

Outside the backward scan of `rlines`, every call of `forward` that can fail
(`fseeko`, `getc`, and `bytes` and `lines` of `read.c`) reports its failure
and makes `forward` stop.  So whatever calls fail, `forward` writes a prefix of
what it writes when none fails, and a run that reports no error is the run in
which no call failed.  The scan of `rlines` is left out: a failure there is
followed by the copy loop, which writes from the stream's offset
(`forward_rlines_failure_writes_outside_tail`).  When no `getc` fails and
neither `bytes` nor `lines` does, `forward` leaves the stream's error indicator
clear.
-/

namespace Userland
namespace Tail

/-! ## The reading loops -/

section Loops

variable (io : Io) (windows : Nat → Window)

/-- The copy loop writes a prefix of the unread bytes; when it stops without a
read error it wrote all of them, as with no failing call. -/
theorem copyLoop_cut : ∀ (pos : Nat) (rest : List Byte),
    (copyLoop io pos rest).1 <+: rest ∧
      ((copyLoop io pos rest).2.2 = false → copyLoop io pos rest = copyLoop (Io.reliable windows) pos rest)
  | pos, [] => ⟨List.nil_prefix, fun clean => by simpa [copyLoop] using clean⟩
  | pos, b :: rest => by
    have next := copyLoop_cut (pos + 1) rest
    unfold copyLoop
    split
    · exact ⟨List.nil_prefix, nofun⟩
    · exact ⟨List.cons_prefix_cons.mpr ⟨rfl, next.1⟩, fun clean => by
        simp only [Io.reliable_getcFails, Bool.false_eq_true, if_false, next.2 clean]⟩

/-- A `FBYTES` loop that ends without a read error stops where it stops with no
failing call. -/
theorem skipBytes_of_some : ∀ {off pos : Nat} {rest : List Byte} {p : Nat},
    skipBytes io off pos rest = some p → skipBytes (Io.reliable windows) off pos rest = some p
  | 0, _, _, _, skipped => skipped
  | _ + 1, pos, [], p, skipped => by
    simp only [skipBytes] at skipped ⊢
    split at skipped <;> simp_all
  | off + 1, pos, _ :: rest, p, skipped => by
    simp only [skipBytes] at skipped ⊢
    split at skipped
    · cases skipped
    · simpa using skipBytes_of_some skipped

/-- A `FLINES` loop that ends without a read error stops where it stops with no
failing call. -/
theorem skipLines_of_some : ∀ {off pos : Nat} {rest : List Byte} {p : Nat},
    skipLines io off pos rest = some p → skipLines (Io.reliable windows) off pos rest = some p
  | _, pos, [], p, skipped => by
    simp only [skipLines] at skipped ⊢
    split at skipped <;> simp_all
  | off, pos, b :: rest, p, skipped => by
    simp only [skipLines] at skipped ⊢
    split at skipped
    · cases skipped
    · simp only [Io.reliable_getcFails, Bool.false_eq_true, if_false]
      cases examined : examine b off with
      | none => simpa [examined] using skipped
      | some off => simpa [examined] using skipLines_of_some (by simpa [examined] using skipped)

end Loops

/-! ## Positioning -/

/-- A positioning run with failing calls against the one without: the run
without failures has a result, and the one with failures ends the same way, or
stops with an error after writing a prefix of what the other writes. -/
def Positioned.Cuts (p q : Positioned) : Prop :=
  q ≠ .fault ∧ (p = q ∨ ∃ e, p = .stop e ∧ e.failed = true ∧
    ∀ e', q = .proceed e' ∨ q = .stop e' → e.out <+: e'.out)

namespace Positioned

theorem Cuts.refl {q : Positioned} (result : q ≠ .fault) : q.Cuts q := ⟨result, .inl rfl⟩

/-- A stop with an error before anything is written. -/
theorem Cuts.failed {q : Positioned} (result : q ≠ .fault) {e : Effects} (failed : e.failed = true)
    (empty : e.out = []) : (Positioned.stop e).Cuts q :=
  ⟨result, .inr ⟨_, rfl, failed, fun _ _ => empty ▸ List.nil_prefix⟩⟩

end Positioned

section Position

variable (io : Io) (windows : Nat → Window) (s : List Byte) (pos : Nat)

/-- Seeking with a call that may fail. -/
theorem seek_cuts (target : Option Nat) :
    (match fseeko io target with
      | none => Positioned.stop { Effects.start pos with failed := true }
      | some stop => .proceed (Effects.start stop)).Cuts
    (match fseeko (Io.reliable windows) target with
      | none => Positioned.stop { Effects.start pos with failed := true }
      | some stop => .proceed (Effects.start stop)) := by
  have result : (match fseeko (Io.reliable windows) target with
      | none => Positioned.stop { Effects.start pos with failed := true }
      | some stop => .proceed (Effects.start stop)) ≠ .fault := by
    split <;> nofun
  rw [show fseeko (Io.reliable windows) target = target from rfl] at result ⊢
  by_cases fails : io.fseekoFails
  · simp only [fseeko, fails, if_true]
    exact Positioned.Cuts.failed result rfl rfl
  · simp only [fseeko, fails, Bool.false_eq_true, if_false]
    exact Positioned.Cuts.refl result

theorem drain_cuts : (drain io s pos).Cuts (drain (Io.reliable windows) s pos) := by
  have result : drain (Io.reliable windows) s pos ≠ .fault := by simp [drain, copyLoop_reliable]
  obtain ⟨-, clean⟩ := copyLoop_cut io windows pos (s.drop pos)
  unfold drain
  rcases run : copyLoop io pos (s.drop pos) with ⟨out, stop, _ | _⟩
  · rw [← run, clean (by rw [run])]
    exact Positioned.Cuts.refl (by simpa [drain] using result)
  · exact Positioned.Cuts.failed (by simpa [drain] using result) rfl rfl

theorem emitReversed_cuts (out : List Byte) (stop : Nat) :
    (emitReversed io out stop).Cuts (emitReversed (Io.reliable windows) out stop) := by
  refine ⟨nofun, ?_⟩
  unfold emitReversed
  split
  · refine .inr ⟨_, rfl, rfl, fun e' reliable => ?_⟩
    simp only [Io.reliable, reduceCtorEq, or_false, Positioned.proceed.injEq] at reliable
    rw [← reliable]
    exact List.take_prefix _ _
  · exact .inl rfl

/-- Outside the scan of `rlines`, a positioning run with failing calls is cut
from the one without. -/
theorem position_cuts (st : Stat) {style : Style} {off : Nat}
    (noScan : ¬(style = .rlines ∧ st.isReg = true ∧ 0 < st.size ∧ 0 < off)) :
    (position io st s pos style off).Cuts (position (Io.reliable windows) st s pos style off) := by
  cases style with
  | fbytes =>
    simp only [position]
    split
    · exact Positioned.Cuts.refl nofun
    split
    · exact seek_cuts io windows pos _
    · have result : (match skipBytes (Io.reliable windows) off pos (s.drop pos) with
          | none => Positioned.stop { Effects.start pos with failed := true, error := true }
          | some stop => .proceed (Effects.start stop)) ≠ .fault := by
        rw [skipBytes_reliable]; nofun
      rcases skipped : skipBytes io off pos (s.drop pos) with _ | p
      · exact Positioned.Cuts.failed result rfl rfl
      · rw [skipBytes_of_some io windows skipped]
        exact Positioned.Cuts.refl nofun
  | flines =>
    simp only [position]
    split
    · exact Positioned.Cuts.refl nofun
    rcases skipped : skipLines io off pos (s.drop pos) with _ | p
    · refine Positioned.Cuts.failed ?_ rfl rfl
      split <;> nofun
    · rw [skipLines_of_some io windows skipped]
      exact Positioned.Cuts.refl nofun
  | rbytes =>
    simp only [position]
    split
    · split
      · exact seek_cuts io windows pos _
      · exact Positioned.Cuts.refl nofun
    split
    · exact drain_cuts io windows s pos
    · exact emitReversed_cuts io windows _ _
  | rlines =>
    simp only [position]
    split
    · next seek =>
      have zero : off = 0 := by
        by_contra positive
        exact noScan ⟨rfl, seek.1, seek.2, Nat.pos_of_ne_zero positive⟩
      simp only [zero, if_true]
      exact seek_cuts io windows pos _
    split
    · exact drain_cuts io windows s pos
    · exact emitReversed_cuts io windows _ _
  | notset => exact Positioned.Cuts.refl nofun
  | reverse => exact Positioned.Cuts.refl nofun

end Position

/-- Whatever calls fail (`fseeko`, `getc`, `bytes`, `lines`), `forward` outside
the scan of `rlines` has a result, writes a prefix of what it writes when no
call fails, and a run that reports no error is exactly the run in which no call
failed. -/
theorem forward_failure_cuts_output (io : Io) (windows : Nat → Window) {st : Stat} {s : List Byte}
    {pos : Nat} {style : Style} {off : Nat}
    (noScan : ¬(style = .rlines ∧ st.isReg = true ∧ 0 < st.size ∧ 0 < off)) :
    ∃ e e', forward io st s pos style off = some e ∧
      forward (Io.reliable windows) st s pos style off = some e' ∧
      e.out <+: e'.out ∧ (e.failed = false → e = e') := by
  obtain ⟨result, same | ⟨e, stopped, failed, cut⟩⟩ := position_cuts io windows s pos st noScan
  · unfold forward
    rw [same]
    rcases reliable : position (Io.reliable windows) st s pos style off with e' | e' | _
    · obtain ⟨copied, clean⟩ := copyLoop_cut io windows e'.pos (s.drop e'.pos)
      refine ⟨_, _, rfl, rfl, ?_, fun ok => ?_⟩
      · simp only [copyLoop_reliable]
        exact List.prefix_append_right_inj _ |>.mpr copied
      · simp only [Bool.or_eq_false_iff] at ok
        simp only [clean ok.2]
    · exact ⟨e', e', rfl, rfl, List.prefix_refl _, fun _ => rfl⟩
    · exact absurd reliable result
  · rcases reliable : position (Io.reliable windows) st s pos style off with e' | e' | _
    · refine ⟨e, _, by simp [forward, stopped], by rw [forward, reliable], ?_, by simp [failed]⟩
      exact (cut e' (.inl reliable)).trans (List.prefix_append _ _)
    · exact ⟨e, e', by simp [forward, stopped], by simp [forward, reliable], cut e' (.inr reliable),
        by simp [failed]⟩
    · exact absurd reliable result

/-- `FLINES` with `N = 1` on `"a\nb\nc"` read from a pipe whose `getc` fails at
offset 3. -/
theorem forward_failure_cuts_output_pipe :
    ¬(Style.flines = .rlines ∧ (⟨⟨0, 0⟩, 1, 0, false⟩ : Stat).isReg = true ∧
      0 < (⟨⟨0, 0⟩, 1, 0, false⟩ : Stat).size ∧ 0 < 1) ∧
    ∃ e e', forward { Io.reliable (fun _ => ⟨0, 5⟩) with getcFails := fun p => p == 3 }
        ⟨⟨0, 0⟩, 1, 0, false⟩ [97, 10, 98, 10, 99] 0 .flines 1 = some e ∧
      forward (Io.reliable fun _ => ⟨0, 5⟩) ⟨⟨0, 0⟩, 1, 0, false⟩ [97, 10, 98, 10, 99] 0 .flines 1 =
        some e' ∧ e.out <+: e'.out ∧ (e.failed = false → e = e') :=
  ⟨by decide, forward_failure_cuts_output _ _ (by decide)⟩

/-! ## The error indicator -/

section Indicator

variable {io : Io} (readable : ∀ pos, io.getcFails pos = false)
include readable

theorem copyLoop_of_readable (windows : Nat → Window) :
    ∀ (pos : Nat) (rest : List Byte), copyLoop io pos rest = copyLoop (Io.reliable windows) pos rest
  | pos, [] => by simp [copyLoop, readable]
  | pos, b :: rest => by
    simp only [copyLoop, readable, Io.reliable_getcFails, copyLoop_of_readable windows (pos + 1) rest]

theorem skipBytes_ne_none : ∀ (off pos : Nat) (rest : List Byte), skipBytes io off pos rest ≠ none
  | 0, _, _ => nofun
  | _ + 1, pos, [] => by simp [skipBytes, readable]
  | off + 1, pos, _ :: rest => by
    simpa [skipBytes, readable] using skipBytes_ne_none off (pos + 1) rest

theorem skipLines_ne_none : ∀ (rest : List Byte) (off pos : Nat), skipLines io off pos rest ≠ none
  | [], _, pos => by simp [skipLines, readable]
  | b :: rest, off, pos => by
    simp only [skipLines, readable, Bool.false_eq_true, if_false]
    split
    · nofun
    · exact skipLines_ne_none rest _ (pos + 1)

/-- With no failing `getc` and no failing `bytes` or `lines`, the positioning of
`forward` leaves the stream's error indicator clear. -/
theorem position_error_clear (uncut : io.reverseCut = none) (st : Stat) (s : List Byte)
    (pos : Nat) (style : Style) (off : Nat) :
    ∀ e, position io st s pos style off = .proceed e ∨ position io st s pos style off = .stop e →
      e.error = false := by
  have drained : ∀ p, drain io s p = .proceed (Effects.start (copyLoop io p (s.drop p)).2.1) := by
    intro p
    simp [drain, copyLoop_of_readable readable (fun _ => ⟨0, 0⟩), copyLoop_reliable]
  cases style <;> simp only [position, drained, bytes, lines, emitReversed, uncut, rlines] <;>
    (repeat' split) <;> simp_all [Effects.start, skipBytes_ne_none readable, skipLines_ne_none readable]

/-- With no failing `getc` and no failing `bytes` or `lines`, `forward` leaves the
stream's error indicator clear. -/
theorem forward_error_clear (uncut : io.reverseCut = none) {st : Stat} {s : List Byte}
    {pos : Nat} {style : Style} {off : Nat} {e : Effects}
    (ran : forward io st s pos style off = some e) : e.error = false := by
  unfold forward at ran
  rcases positioned : position io st s pos style off with e' | e' | _ <;>
    simp only [positioned, Option.some.injEq] at ran
  · subst ran
    simp [position_error_clear readable uncut st s pos style off _ (.inl positioned),
      copyLoop_of_readable readable (fun _ => ⟨0, 0⟩), copyLoop_reliable]
  · exact ran ▸ position_error_clear readable uncut st s pos style off _ (.inr positioned)
  · cases ran

end Indicator

end Tail
end Userland
