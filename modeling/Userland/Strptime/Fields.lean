import Userland.Strptime.Run

/-!
# Numeric fields

The directives that read a number check it against the range of its field and
return `NULL` outside it.  `%M %S %Y %y` may be left out at the end of the input
or before white space.  `%e %k %l` read the blank-padded numbers `strftime`
writes for them: `%e` skips one white-space character before the day, `%k` and
`%l` a blank before a one-digit hour.
-/

namespace Userland
namespace Strptime

variable {s : CStr} {rest : List Char} {l : Loc}

/-- The numeric directives: how many digits each reads and the least and the
greatest value it accepts. -/
def fieldRange : Char → Option (Nat × Nat × Nat)
  | 'C' => some (2, 0, 99)
  | 'd' => some (2, 1, 31)
  | 'e' => some (2, 1, 31)
  | 'H' => some (2, 0, 23)
  | 'I' => some (2, 1, 12)
  | 'j' => some (3, 1, 366)
  | 'k' => some (2, 0, 23)
  | 'l' => some (2, 1, 12)
  | 'M' => some (2, 0, 59)
  | 'm' => some (2, 1, 12)
  | 'S' => some (2, 0, 60)
  | 'U' => some (2, 0, 53)
  | 'u' => some (1, 1, 7)
  | 'W' => some (2, 0, 53)
  | 'w' => some (1, 0, 6)
  | 'Y' => some (4, 0, 9999)
  | 'y' => some (2, 0, 99)
  | _ => none

/-- `if (*buf != 0 && isspace((unsigned char)*buf)) buf++;` at the character `c`. -/
theorem skipBlankE_of_drop {buf : Nat} {c : Char} (at_buf : s.chars.drop buf = c :: rest) :
    skipBlankE s buf = .ok (if c ≠ '\x00' ∧ isspace c then buf + 1 else buf) := by
  simp only [skipBlankE, CStr.charAt_of_drop at_buf, ok_bind]
  rfl

theorem ok_ite_pos {p : Prop} [Decidable p] (fits : p) {a : Step} (b : Step) :
    (.ok a : Except Fault Step) = .ok (if p then a else b) := by
  rw [if_pos fits]

/-- Every numeric directive on its full width of digits reads them all and
accepts exactly the values of its range; out of it the result is `NULL`, with
`tm` and `*GMTp` as they were. -/
theorem convert_checks_range {c : Char} {w lo hi : Nat} (field : fieldRange c = some (w, lo, hi)) (env : Env)
    {v : Nat} (small : v < 10 ^ w) (at_buf : s.chars.drop l.buf = pad w v ++ rest) (O : Bool) :
    ∃ l', convert env s c O l = .ok (if lo ≤ v ∧ v ≤ hi then .next l' else l.null) ∧ l'.buf = l.buf + w := by
  unfold fieldRange at field
  split at field <;> simp only [Option.some.injEq, Prod.mk.injEq, reduceCtorEq] at field <;>
    obtain ⟨rfl, rfl, rfl⟩ := field
  · exact ⟨_, (convCentury_pad small at_buf).trans (ok_ite_pos ⟨Nat.zero_le _, by omega⟩ _), rfl⟩
  · exact ⟨_, convMday_digits small at_buf, rfl⟩
  · obtain ⟨-, -, notSpace, -⟩ := digitChar_spec (v / 10 ^ 1 % 10) (Nat.mod_lt _ (by decide))
    have skip : skipBlankE s l.buf = .ok l.buf := by
      simp only [skipBlankE_of_drop at_buf, notSpace, Bool.false_eq_true, and_false, if_false]
    exact ⟨_, (congrArg (· >>= fun buf => convMday s buf l) skip).trans (convMday_digits small at_buf), rfl⟩
  · exact ⟨_, by simpa using convHour_digits (.inl rfl) small at_buf, rfl⟩
  · exact ⟨_, by simpa using convHour_digits (.inr (.inl rfl)) small at_buf, rfl⟩
  · exact ⟨_, convYday_digits small at_buf, rfl⟩
  · exact ⟨_, by simpa using convHour_digits (.inr (.inr (.inl rfl))) small at_buf, rfl⟩
  · exact ⟨_, by simpa using convHour_digits (.inr (.inr (.inr rfl))) small at_buf, rfl⟩
  · exact ⟨_, by simpa using convMinSec_digits_min small at_buf, rfl⟩
  · exact ⟨_, convMonth_digits small at_buf, rfl⟩
  · exact ⟨_, by simpa using convMinSec_digits_sec small at_buf, rfl⟩
  · exact ⟨_, by simpa using convWeek_digits 'U' small at_buf, rfl⟩
  · exact ⟨_, by simpa using convWdayNumber_digits (.inl rfl) small at_buf, rfl⟩
  · exact ⟨_, by simpa using convWeek_digits 'W' small at_buf, rfl⟩
  · exact ⟨_, by simpa using convWdayNumber_digits (.inr rfl) small at_buf, rfl⟩
  · exact ⟨_, (convYear_pad small at_buf).trans (ok_ite_pos ⟨Nat.zero_le _, by omega⟩ _), rfl⟩
  · exact ⟨_, (convYear_pad_two small at_buf).trans (ok_ite_pos ⟨Nat.zero_le _, by omega⟩ _), rfl⟩

/-- `%I` on `"13"`. -/
theorem convert_checks_range_hour_thirteen :
    fieldRange 'I' = some (2, 1, 12) ∧ 13 < 10 ^ 2 ∧
      (lit "13" (by decide)).chars.drop (Loc.init 0 ⟨0, 0, 0, 0, 0, 0, 0, 0, 0⟩ false).buf = pad 2 13 ++ [] ∧
      ∃ l', convert Env.blank (lit "13" (by decide)) 'I' false (Loc.init 0 ⟨0, 0, 0, 0, 0, 0, 0, 0, 0⟩ false) =
          .ok (if 1 ≤ 13 ∧ 13 ≤ 12 then .next l' else (Loc.init 0 ⟨0, 0, 0, 0, 0, 0, 0, 0, 0⟩ false).null) ∧
        l'.buf = (Loc.init 0 ⟨0, 0, 0, 0, 0, 0, 0, 0, 0⟩ false).buf + 2 :=
  ⟨rfl, by decide, rfl, @convert_checks_range (lit "13" (by decide)) [] (Loc.init 0 ⟨0, 0, 0, 0, 0, 0, 0, 0, 0⟩ false)
    'I' 2 1 12 rfl Env.blank 13 (by decide) rfl false⟩

/-- `%M`, `%S`, `%Y` and `%y` at the end of the input or at white space read
nothing and change nothing (`if (*buf == 0 || isspace((unsigned char)*buf))
break;`): those fields may be left out there. -/
theorem convert_optional_at_blank {c : Char} (lenient : c = 'M' ∨ c = 'S' ∨ c = 'Y' ∨ c = 'y') (env : Env)
    (within : l.buf ≤ s.chars.length) (blank : ∀ b ∈ (s.chars.drop l.buf).head?, isspace b) (O : Bool) :
    convert env s c O l = .ok (.next l) := by
  obtain ⟨b, read, stop⟩ : ∃ b, s.charAt l.buf = .ok b ∧ (b = '\x00' ∨ isspace b) := by
    cases at_buf : s.chars.drop l.buf with
    | nil =>
      have at_end : l.buf = s.chars.length := by have := List.drop_eq_nil_iff.mp at_buf; omega
      exact ⟨_, at_end ▸ s.charAt_length, .inl rfl⟩
    | cons b _ => exact ⟨b, CStr.charAt_of_drop at_buf, .inr (blank b (by simp [at_buf]))⟩
  have minSec (c : Char) : convMinSec c s l = .ok (.next l) := by
    simp only [convMinSec, read, ok_bind, stop, if_true, pure_eq_ok]
  have year (c : Char) : convYear c s l = .ok (.next l) := by
    simp only [convYear, read, ok_bind, stop, if_true, pure_eq_ok]
  rcases lenient with rfl | rfl | rfl | rfl
  exacts [minSec _, minSec _, year _, year _]

example : _strptime 6 Env.blank (lit "12:" (by decide)) 0 (lit "%H:%M" (by decide)) ⟨0, 0, 0, 0, 0, 0, 0, 0, 0⟩
    false = .ok ⟨some 3, ⟨0, 0, 12, 0, 0, 0, 0, 0, 0⟩, false⟩ := rfl

/-! ## Blank-padded numbers -/

/-- What `strftime` writes for `%e`, `%k` and `%l`: two digits, with a blank in
place of a leading zero. -/
def blankPad (v : Nat) : List Char := if v < 10 then ' ' :: pad 1 v else pad 2 v

/-- The digit loop for two digits on one digit and then no digit. -/
theorem number_digit_stop {buf v : Nat} (small : v < 10) (at_buf : s.chars.drop buf = pad 1 v ++ rest)
    (stop : ∀ b ∈ rest.head?, isdigit b = false) : number s 2 buf = .ok (some (v, buf + 1)) := by
  obtain ⟨nonNul, digit, -, value⟩ := digitChar_spec v small
  have first : s.charAt buf = .ok (digitChar v) := by
    simpa [pad, Nat.mod_eq_of_lt small] using CStr.charAt_of_drop at_buf
  obtain ⟨b, next, ends⟩ : ∃ b, s.charAt (buf + 1) = .ok b ∧ ¬(b ≠ '\x00' ∧ isdigit b) := by
    have after := CStr.drop_succ_of_drop at_buf
    cases rest with
    | nil =>
      have at_end : buf + 1 = s.chars.length := by
        have := congrArg List.length at_buf
        simp only [List.length_drop, List.length_append, pad_length, List.length_nil, Nat.add_zero] at this
        omega
      exact ⟨_, at_end ▸ s.charAt_length, fun ⟨nul, _⟩ => nul rfl⟩
    | cons b _ => exact ⟨b, CStr.charAt_of_drop after, fun ⟨_, isDigit⟩ => by simp_all⟩
  simp only [number, first, ok_bind, digit, if_true, CStr.digits, nonNul, ne_eq, not_false_eq_true, and_self,
    next, ends, if_false, value, Nat.zero_mul, Nat.zero_add]
  rfl

/-- `%e`, `%k` and `%l` read back what `strftime` writes for them: a day of the
month or an hour in its range, blank-padded; for `%e` a one-digit day must not
be followed by a digit. -/
theorem convert_reads_blank_padded {c : Char} {lo hi : Nat} (blanked : c = 'e' ∨ c = 'k' ∨ c = 'l')
    (field : fieldRange c = some (2, lo, hi)) (env : Env) {v : Nat} (range : lo ≤ v ∧ v ≤ hi)
    (at_buf : s.chars.drop l.buf = blankPad v ++ rest) (stop : c = 'e' → ∀ b ∈ rest.head?, isdigit b = false)
    (O : Bool) :
    convert env s c O l = .ok (.next (if c = 'e' then
      { l with buf := l.buf + 2, tm := { l.tm with tm_mday := v }, flags := { l.flags with mday := true } }
      else { l with buf := l.buf + 2, tm := { l.tm with tm_hour := v } })) := by
  rcases blanked with rfl | hour
  · cases (field : some (2, 1, 31) = some (2, lo, hi))
    rw [if_pos rfl]
    show (skipBlankE s l.buf >>= fun buf => convMday s buf l) = _
    by_cases small : v < 10
    · rw [blankPad, if_pos small, List.cons_append] at at_buf
      have skip : skipBlankE s l.buf = .ok (l.buf + 1) := (skipBlankE_of_drop at_buf).trans rfl
      simp only [skip, ok_bind, convMday, number_digit_stop small (CStr.drop_succ_of_drop at_buf) (stop rfl),
        if_neg (show ¬(v = 0 ∨ v > 31) by omega)]
      rfl
    · rw [blankPad, if_neg small] at at_buf
      obtain ⟨-, -, notSpace, -⟩ := digitChar_spec (v / 10 ^ 1 % 10) (Nat.mod_lt _ (by decide))
      simp only [skipBlankE_of_drop at_buf, notSpace, Bool.false_eq_true, and_false, if_false, ok_bind,
        convMday_digits (by omega) at_buf, if_pos (show 1 ≤ v ∧ v ≤ 31 by omega)]
  · have fits : if c = 'H' ∨ c = 'k' then v ≤ 23 else 1 ≤ v ∧ v ≤ 12 := by
      rcases hour with rfl | rfl
      · cases (field : some (2, 0, 23) = some (2, lo, hi))
        exact range.2
      · cases (field : some (2, 1, 12) = some (2, lo, hi))
        exact range
    have bound : v ≤ 23 := by split at fits <;> omega
    have read : convert env s c O l = convHour c s l := by rcases hour with rfl | rfl <;> rfl
    rw [read, if_neg (by rcases hour with rfl | rfl <;> decide)]
    by_cases small : v < 10
    · rw [blankPad, if_pos small, List.cons_append] at at_buf
      have start : hourStart c s l.buf = .ok (l.buf + 1, 1) := by
        simp only [hourStart, hour, if_true, CStr.charAt_of_drop at_buf, ok_bind]
        rfl
      simp only [convHour, start, ok_bind, number_pad (by decide) (CStr.drop_succ_of_drop at_buf),
        Nat.mod_eq_of_lt (show v < 10 ^ 1 from small)]
      rw [if_neg (by split_ifs at fits ⊢ <;> omega)]
      rfl
    · rw [blankPad, if_neg small] at at_buf
      rw [convHour_digits (.inr (.inr hour)) (by omega) at_buf, if_pos fits]

/-- `%e` on `" 5 "`. -/
theorem convert_reads_blank_padded_fifth :
    ('e' = 'e' ∨ 'e' = 'k' ∨ 'e' = 'l') ∧ fieldRange 'e' = some (2, 1, 31) ∧ (1 ≤ 5 ∧ 5 ≤ 31) ∧
      (lit " 5 " (by decide)).chars.drop (Loc.init 0 ⟨0, 0, 0, 0, 0, 0, 0, 0, 0⟩ false).buf = blankPad 5 ++ [' '] ∧
      ('e' = 'e' → ∀ b ∈ [' '].head?, isdigit b = false) ∧
      convert Env.blank (lit " 5 " (by decide)) 'e' false (Loc.init 0 ⟨0, 0, 0, 0, 0, 0, 0, 0, 0⟩ false) =
        .ok (.next { Loc.init 2 ⟨0, 0, 0, 5, 0, 0, 0, 0, 0⟩ false with flags := ⟨false, false, false, true, false⟩ }) :=
  ⟨.inl rfl, rfl, by decide, by decide, fun _ => by decide,
    @convert_reads_blank_padded _ [' '] _ 'e' 1 31 (.inl rfl) rfl Env.blank 5 (by decide) (by decide)
      (fun _ => by decide) false⟩

end Strptime
end Userland
