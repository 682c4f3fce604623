import Userland.Strptime.Run

/-!
# Formats without directives

The characters of a format other than a directive are matched by the loop of
`_strptime` itself: a white-space character of the format skips the run of white
space at the input's position, possibly empty, and any other character must be
the next character of the input.  `matchLiteral` states this over lists.  For a
format with no `%`, `_strptime` returns the position where `matchLiteral` ends,
or `NULL` where it fails, and leaves `tm` as it was.
-/

namespace Userland
namespace Strptime

/-- Matching the characters `fmt` against the input `s` from position `p`: a
white-space character skips the white space at `p`, any other character must be
the one at `p`.  The position where the match ends, or `none`. -/
def matchLiteral (s : List Char) : List Char → Nat → Option Nat
  | [], p => some p
  | c :: fmt, p =>
    if isspace c then matchLiteral s fmt (p + ((s.drop p).takeWhile isspace).length)
    else if (s.drop p).head? = some c then matchLiteral s fmt (p + 1) else none

theorem takeWhile_drop_within {s : List Char} {p : Nat} (within : p ≤ s.length) (q : Char → Bool) :
    p + ((s.drop p).takeWhile q).length ≤ s.length := by
  have := (List.takeWhile_sublist q (l := s.drop p)).length_le
  rw [List.length_drop] at this
  omega

theorem drop_head_within {s : List Char} {p : Nat} {c : Char} (head : (s.drop p).head? = some c) :
    p + 1 ≤ s.length := by
  by_contra past
  rw [List.drop_eq_nil_of_le (by omega)] at head
  cases head

section Plain

variable (env : Env) (input : CStr) {fmt : CStr} (plain : '%' ∉ fmt.chars) (tm : Tm) (gmt : Bool)
include plain

/-- The loop over the rest `rest` of a format with no `%`, from input position
`buf`. -/
theorem scan_plain : ∀ (rest : List Char) (ptr buf fuel : Nat), ptr ≤ fmt.chars.length →
    fmt.chars.drop ptr = rest → buf ≤ input.chars.length →
    scan (fuel + rest.length + 1) env input fmt ptr .top (Loc.init buf tm gmt) =
      .ok ⟨matchLiteral input.chars rest buf, tm, gmt⟩
  | [], ptr, buf, fuel, ptrWithin, at_ptr, _ => by
    have at_end : ptr = fmt.chars.length := by have := List.drop_eq_nil_iff.mp at_ptr; omega
    subst at_end
    exact (scan_end (fmt.charAt_length)).trans (finish_init buf tm gmt)
  | c :: rest, ptr, buf, fuel, _, at_ptr, within => by
    have read := CStr.charAt_of_drop at_ptr
    have mem : c ∈ fmt.chars := List.mem_of_mem_drop (at_ptr ▸ List.mem_cons_self c rest)
    have nonNul : c ≠ '\x00' := fun nul => fmt.no_nul (nul ▸ mem)
    have notPercent : c ≠ '%' := fun percent => plain (percent ▸ mem)
    have next : fmt.chars.drop (ptr + 1) = rest := by
      rw [← List.drop_drop, at_ptr, List.drop_one, List.tail_cons]
    have nextWithin : ptr + 1 ≤ fmt.chars.length := by
      have := congrArg List.length at_ptr
      simp only [List.length_drop, List.length_cons] at this
      omega
    by_cases space : isspace c
    · rw [matchLiteral, if_pos space]
      exact (scan_literal read nonNul notPercent (literal_isspace space within)).trans
        (scan_plain rest (ptr + 1) _ fuel nextWithin next (takeWhile_drop_within within _))
    by_cases head : (input.chars.drop buf).head? = some c
    · rw [matchLiteral, if_neg space, if_pos head]
      have step := literal_notSpace (l := Loc.init buf tm gmt) (Bool.eq_false_iff.mpr space) nonNul within
      rw [Loc.init_buf, if_pos head] at step
      exact (scan_literal read nonNul notPercent step).trans
        (scan_plain rest (ptr + 1) _ fuel nextWithin next (drop_head_within head))
    · rw [matchLiteral, if_neg space, if_neg head]
      have step := literal_notSpace (l := Loc.init buf tm gmt) (Bool.eq_false_iff.mpr space) nonNul within
      rw [Loc.init_buf, if_neg head] at step
      exact scan_literal_null read nonNul notPercent step

/-- For a format with no directive, `_strptime` is `matchLiteral`: it returns
the position where the format's characters stop matching the input, white space
matching any run of white space, or `NULL` where a character does not match; and
it leaves `tm` and the time zone as they were. -/
theorem strptime_matches_literal_format (fuel : Nat) :
    _strptime (fuel + fmt.chars.length + 1) env input 0 fmt tm gmt =
      .ok ⟨matchLiteral input.chars fmt.chars 0, tm, gmt⟩ :=
  scan_plain env input plain tm gmt _ 0 0 fuel (Nat.zero_le _) rfl (Nat.zero_le _)

end Plain

theorem strptime_matches_literal_format_tab :
    '%' ∉ (lit " x" (by decide)).chars ∧
      matchLiteral (lit "  \tx" (by decide)).chars (lit " x" (by decide)).chars 0 = some 4 ∧
      _strptime 3 Env.blank (lit "  \tx" (by decide)) 0 (lit " x" (by decide)) ⟨0, 0, 0, 0, 0, 0, 0, 0, 0⟩
        false = .ok ⟨some 4, ⟨0, 0, 0, 0, 0, 0, 0, 0, 0⟩, false⟩ :=
  ⟨by decide, by decide,
    strptime_matches_literal_format Env.blank (lit "  \tx" (by decide)) (by decide)
      ⟨0, 0, 0, 0, 0, 0, 0, 0, 0⟩ false 0⟩

end Strptime
end Userland
