import Userland.Strptime.Parse
import Userland.Strptime.Calendar
import Mathlib.Tactic.Ring

/-!
# Running `_strptime` on a date `strftime` wrote

The lemmas that evaluate `_strptime` on the fields of a rendered date: the
digit loop on a zero-padded number, each directive on its field, one round of
the loop, and the completion of the date on each of its three paths (from the
month and the day, from the day of the year, from the week and the weekday).
The input is followed by where it stands, `s.chars.drop buf`.
-/

namespace Userland
namespace Strptime

section Fields

variable {s : CStr} {buf : Nat} {rest : List Char}

theorem drop_append_of_drop {xs : List Char} (at_buf : s.chars.drop buf = xs ++ rest) :
    s.chars.drop (buf + xs.length) = rest := by
  rw [← List.drop_drop, at_buf, List.drop_left]

theorem drop_pad_of_drop {w v : Nat} (at_buf : s.chars.drop buf = pad w v ++ rest) :
    s.chars.drop (buf + w) = rest := by
  simpa [pad_length] using drop_append_of_drop at_buf

/-- The digit loop reads a `w`-digit zero-padded number whole. -/
theorem digits_pad : ∀ (w v i buf : Nat), s.chars.drop buf = pad w v ++ rest →
    s.digits w i buf = .ok (i * 10 ^ w + v % 10 ^ w, buf + w)
  | 0, v, i, buf, _ => by simp [CStr.digits, Nat.mod_one]; rfl
  | w + 1, v, i, buf, at_buf => by
    obtain ⟨nonNul, digit, -, value⟩ := digitChar_spec (v / 10 ^ w % 10) (Nat.mod_lt _ (by decide))
    have next : s.chars.drop (buf + [digitChar (v / 10 ^ w % 10)].length) = pad w v ++ rest :=
      drop_append_of_drop at_buf
    simp only [CStr.digits, CStr.charAt_of_drop at_buf, ok_bind, ne_eq, nonNul, not_false_eq_true,
      digit, and_self, if_true, value, digits_pad w v _ (buf + 1) next, Nat.mod_pow_succ]
    congr 2
    · ring
    · omega

theorem zoneDigits_pad : ∀ (w v i buf : Nat), s.chars.drop buf = pad w v ++ rest →
    zoneDigits s w i buf = .ok (some (i * 10 ^ w + v % 10 ^ w, buf + w))
  | 0, v, i, buf, _ => by simp [zoneDigits, Nat.mod_one, pure_eq_ok]
  | w + 1, v, i, buf, at_buf => by
    obtain ⟨-, digit, -, value⟩ := digitChar_spec (v / 10 ^ w % 10) (Nat.mod_lt _ (by decide))
    have next : s.chars.drop (buf + [digitChar (v / 10 ^ w % 10)].length) = pad w v ++ rest :=
      drop_append_of_drop at_buf
    simp only [zoneDigits, CStr.charAt_of_drop at_buf, ok_bind, digit, if_true, value,
      zoneDigits_pad w v _ (buf + 1) next, Nat.mod_pow_succ]
    congr 3
    · ring
    · omega

theorem number_pad {w v : Nat} (wide : 1 ≤ w) (at_buf : s.chars.drop buf = pad w v ++ rest) :
    number s w buf = .ok (some (v % 10 ^ w, buf + w)) := by
  obtain ⟨k, rfl⟩ : ∃ k, w = k + 1 := ⟨w - 1, by omega⟩
  have digit := (digitChar_spec (v / 10 ^ k % 10) (Nat.mod_lt _ (by decide))).2.1
  simp only [number, CStr.charAt_of_drop at_buf, ok_bind, digit, if_true,
    digits_pad _ _ _ _ at_buf, Nat.zero_mul, Nat.zero_add]
  rfl

end Fields

section Directives

variable {s : CStr} {rest : List Char} {l : Loc}

theorem convYear_pad {v : Nat} (small : v < 10000) (at_buf : s.chars.drop l.buf = pad 4 v ++ rest) :
    convYear 'Y' s l = .ok (.next { l with
      buf := l.buf + 4
      century := ((v / 100 : Nat) : Int)
      year := ((v % 100 : Nat) : Int)
      flags := { l.flags with year := true } }) := by
  obtain ⟨nonNul, -, notSpace, -⟩ := digitChar_spec (v / 10 ^ 3 % 10) (Nat.mod_lt _ (by decide))
  simp only [convYear, CStr.charAt_of_drop at_buf, ok_bind, nonNul, notSpace, false_or,
    Bool.false_eq_true, if_false, if_true, number_pad (by decide) at_buf,
    Nat.mod_eq_of_lt (show v < 10 ^ 4 by omega)]
  rfl

theorem convYear_pad_two {v : Nat} (small : v < 100) (at_buf : s.chars.drop l.buf = pad 2 v ++ rest) :
    convYear 'y' s l = .ok (.next { l with
      buf := l.buf + 2
      year := (v : Int)
      flags := { l.flags with year := true } }) := by
  obtain ⟨nonNul, -, notSpace, -⟩ := digitChar_spec (v / 10 ^ 1 % 10) (Nat.mod_lt _ (by decide))
  simp only [convYear, CStr.charAt_of_drop at_buf, ok_bind, nonNul, notSpace, false_or,
    Bool.false_eq_true, if_false, if_neg (show ('y' : Char) ≠ 'Y' by decide),
    number_pad (by decide) at_buf, Nat.mod_eq_of_lt (show v < 10 ^ 2 by omega), Nat.mod_eq_of_lt small]
  rfl

theorem convCentury_pad {c : Nat} (small : c < 100) (at_buf : s.chars.drop l.buf = pad 2 c ++ rest) :
    convCentury s l = .ok (.next { l with
      buf := l.buf + 2
      century := (c : Int)
      flags := { l.flags with year := true } }) := by
  simp only [convCentury, number_pad (by decide) at_buf, ok_bind,
    Nat.mod_eq_of_lt (show c < 10 ^ 2 from small)]
  rfl

/-- The range check of a directive, `if (i < lo || i > hi) return (NULL);`, as
acceptance of the values in range. -/
theorem checked {bad fits : Prop} [Decidable bad] [Decidable fits] (iff : bad ↔ ¬fits) (accept reject : Step) :
    (if bad then Pure.pure reject else Pure.pure accept : Except Fault Step) =
      .ok (if fits then accept else reject) := by
  by_cases holds : fits <;> simp [iff, holds, pure_eq_ok]

theorem isblank_digitChar : ∀ k < 10, isblank (digitChar k) = false := by decide

/-- `%m` on two digits: the month when they are `01 .. 12`, `NULL` otherwise. -/
theorem convMonth_digits {m : Nat} (small : m < 100) (at_buf : s.chars.drop l.buf = pad 2 m ++ rest) :
    convMonth s l = .ok (if 1 ≤ m ∧ m ≤ 12 then .next { l with
      buf := l.buf + 2
      tm := { l.tm with tm_mon := (m : Int) - 1 }
      flags := { l.flags with month := true } } else l.null) := by
  simp only [convMonth, number_pad (by decide) at_buf, ok_bind, Nat.mod_eq_of_lt (show m < 10 ^ 2 from small)]
  refine checked ?_ _ _
  omega

theorem convMonth_pad {m : Nat} (lo : 1 ≤ m) (hi : m ≤ 12)
    (at_buf : s.chars.drop l.buf = pad 2 m ++ rest) :
    convMonth s l = .ok (.next { l with
      buf := l.buf + 2
      tm := { l.tm with tm_mon := (m : Int) - 1 }
      flags := { l.flags with month := true } }) := by
  rw [convMonth_digits (by omega) at_buf, if_pos ⟨lo, hi⟩]

/-- `%d` on two digits: the day of the month when they are `01 .. 31`. -/
theorem convMday_digits {d : Nat} (small : d < 100) (at_buf : s.chars.drop l.buf = pad 2 d ++ rest) :
    convMday s l.buf l = .ok (if 1 ≤ d ∧ d ≤ 31 then .next { l with
      buf := l.buf + 2
      tm := { l.tm with tm_mday := d }
      flags := { l.flags with mday := true } } else l.null) := by
  simp only [convMday, number_pad (by decide) at_buf, ok_bind, Nat.mod_eq_of_lt (show d < 10 ^ 2 from small)]
  refine checked ?_ _ _
  omega

theorem convMday_pad {d : Nat} (lo : 1 ≤ d) (hi : d ≤ 31)
    (at_buf : s.chars.drop l.buf = pad 2 d ++ rest) :
    convMday s l.buf l = .ok (.next { l with
      buf := l.buf + 2
      tm := { l.tm with tm_mday := d }
      flags := { l.flags with mday := true } }) := by
  rw [convMday_digits (by omega) at_buf, if_pos ⟨lo, hi⟩]

/-- `%j` on three digits: the day of the year when they are `001 .. 366`. -/
theorem convYday_digits {j : Nat} (small : j < 1000) (at_buf : s.chars.drop l.buf = pad 3 j ++ rest) :
    convYday s l = .ok (if 1 ≤ j ∧ j ≤ 366 then .next { l with
      buf := l.buf + 3
      tm := { l.tm with tm_yday := (j : Int) - 1 }
      flags := { l.flags with yday := true } } else l.null) := by
  simp only [convYday, number_pad (by decide) at_buf, ok_bind, Nat.mod_eq_of_lt (show j < 10 ^ 3 from small)]
  refine checked ?_ _ _
  omega

theorem convYday_pad {j : Nat} (lo : 1 ≤ j) (hi : j ≤ 366)
    (at_buf : s.chars.drop l.buf = pad 3 j ++ rest) :
    convYday s l = .ok (.next { l with
      buf := l.buf + 3
      tm := { l.tm with tm_yday := (j : Int) - 1 }
      flags := { l.flags with yday := true } }) := by
  rw [convYday_digits (by omega) at_buf, if_pos ⟨lo, hi⟩]

/-- `%U` and `%W` on two digits: the week when they are `00 .. 53`. -/
theorem convWeek_digits (c : Char) {u : Nat} (small : u < 100) (at_buf : s.chars.drop l.buf = pad 2 u ++ rest) :
    convWeek c s l = .ok (if u ≤ 53 then .next { l with
      buf := l.buf + 2
      day_offset := if c = 'U' then TM_SUNDAY else TM_MONDAY
      week_offset := u } else l.null) := by
  simp only [convWeek, number_pad (by decide) at_buf, ok_bind, Nat.mod_eq_of_lt (show u < 10 ^ 2 from small)]
  refine checked ?_ _ _
  omega

theorem convWeek_pad (c : Char) {u : Nat} (hi : u ≤ 53)
    (at_buf : s.chars.drop l.buf = pad 2 u ++ rest) :
    convWeek c s l = .ok (.next { l with
      buf := l.buf + 2
      day_offset := if c = 'U' then TM_SUNDAY else TM_MONDAY
      week_offset := u }) := by
  rw [convWeek_digits c (by omega) at_buf, if_pos hi]

/-- `%u` and `%w` on a digit: the weekday when it is `1 .. 7` for `%u`, `0 .. 6`
for `%w`. -/
theorem convWdayNumber_digits {c : Char} (weekday : c = 'u' ∨ c = 'w') {w : Nat} (small : w < 10)
    (at_buf : s.chars.drop l.buf = pad 1 w ++ rest) :
    convWdayNumber c s l = .ok (if (if c = 'u' then 1 ≤ w ∧ w ≤ 7 else w ≤ 6) then .next { l with
      buf := l.buf + 1
      tm := { l.tm with tm_wday := (w : Int).tmod 7 }
      flags := { l.flags with wday := true } } else l.null) := by
  have read : s.charAt l.buf = .ok (digitChar w) := by
    simpa [Nat.mod_eq_of_lt small] using CStr.charAt_of_drop at_buf
  obtain ⟨-, digit, -, value⟩ := digitChar_spec w small
  simp only [convWdayNumber, read, ok_bind, digit, Bool.not_true, Bool.false_eq_true, if_false, value]
  refine checked ?_ _ _
  rcases weekday with rfl | rfl <;> simp <;> omega

theorem convWdayNumber_pad (c : Char) {w : Nat}
    (valid : (c = 'w' ∧ w ≤ 6) ∨ (c = 'u' ∧ 1 ≤ w ∧ w ≤ 7))
    (at_buf : s.chars.drop l.buf = pad 1 w ++ rest) :
    convWdayNumber c s l = .ok (.next { l with
      buf := l.buf + 1
      tm := { l.tm with tm_wday := (w : Int).tmod 7 }
      flags := { l.flags with wday := true } }) := by
  rcases valid with ⟨rfl, fits⟩ | ⟨rfl, fits⟩
  · rw [convWdayNumber_digits (.inr rfl) (by omega) at_buf]
    simp [fits]
  · rw [convWdayNumber_digits (.inl rfl) (by omega) at_buf]
    simp [fits]

/-- `%M` on two digits: the minute when they are `00 .. 59`. -/
theorem convMinSec_digits_min {v : Nat} (small : v < 100) (at_buf : s.chars.drop l.buf = pad 2 v ++ rest) :
    convMinSec 'M' s l = .ok (if v ≤ 59 then .next { l with buf := l.buf + 2, tm := { l.tm with tm_min := v } }
      else l.null) := by
  obtain ⟨nonNul, -, notSpace, -⟩ := digitChar_spec (v / 10 ^ 1 % 10) (Nat.mod_lt _ (by decide))
  simp only [convMinSec, CStr.charAt_of_drop at_buf, ok_bind, nonNul, notSpace, false_or,
    Bool.false_eq_true, if_false, number_pad (by decide) at_buf,
    Nat.mod_eq_of_lt (show v < 10 ^ 2 from small), if_true]
  refine checked ?_ _ _
  omega

theorem convMinSec_pad_min {v : Nat} (hi : v ≤ 59) (at_buf : s.chars.drop l.buf = pad 2 v ++ rest) :
    convMinSec 'M' s l = .ok (.next { l with buf := l.buf + 2, tm := { l.tm with tm_min := v } }) := by
  rw [convMinSec_digits_min (by omega) at_buf, if_pos hi]

/-- `%S` on two digits: the second when they are `00 .. 60`, the leap second
included. -/
theorem convMinSec_digits_sec {v : Nat} (small : v < 100) (at_buf : s.chars.drop l.buf = pad 2 v ++ rest) :
    convMinSec 'S' s l = .ok (if v ≤ 60 then .next { l with buf := l.buf + 2, tm := { l.tm with tm_sec := v } }
      else l.null) := by
  obtain ⟨nonNul, -, notSpace, -⟩ := digitChar_spec (v / 10 ^ 1 % 10) (Nat.mod_lt _ (by decide))
  simp only [convMinSec, CStr.charAt_of_drop at_buf, ok_bind, nonNul, notSpace, false_or,
    Bool.false_eq_true, if_false, number_pad (by decide) at_buf,
    Nat.mod_eq_of_lt (show v < 10 ^ 2 from small), if_neg (show ('S' : Char) ≠ 'M' by decide)]
  refine checked ?_ _ _
  omega

theorem convMinSec_pad_sec {v : Nat} (hi : v ≤ 60) (at_buf : s.chars.drop l.buf = pad 2 v ++ rest) :
    convMinSec 'S' s l = .ok (.next { l with buf := l.buf + 2, tm := { l.tm with tm_sec := v } }) := by
  rw [convMinSec_digits_sec (by omega) at_buf, if_pos hi]

/-- `%H %I %k %l` on two digits: the hour when they are `00 .. 23` for `%H %k`,
`01 .. 12` for `%I %l`. -/
theorem convHour_digits {c : Char} (hour : c = 'H' ∨ c = 'I' ∨ c = 'k' ∨ c = 'l') {v : Nat} (small : v < 100)
    (at_buf : s.chars.drop l.buf = pad 2 v ++ rest) :
    convHour c s l = .ok (if (if c = 'H' ∨ c = 'k' then v ≤ 23 else 1 ≤ v ∧ v ≤ 12) then
      .next { l with buf := l.buf + 2, tm := { l.tm with tm_hour := v } } else l.null) := by
  have start : hourStart c s l.buf = .ok (l.buf, 2) := by
    unfold hourStart
    split
    · simp only [CStr.charAt_of_drop at_buf, ok_bind, isblank_digitChar _ (Nat.mod_lt _ (by decide))]
      rfl
    · rfl
  simp only [convHour, start, ok_bind, number_pad (by decide) at_buf, Nat.mod_eq_of_lt (show v < 10 ^ 2 from small)]
  refine checked ?_ _ _
  rcases hour with rfl | rfl | rfl | rfl <;> simp <;> omega

theorem convHour_pad (c : Char) {v : Nat} (valid : (c = 'H' ∧ v ≤ 23) ∨ (c = 'I' ∧ 1 ≤ v ∧ v ≤ 12))
    (at_buf : s.chars.drop l.buf = pad 2 v ++ rest) :
    convHour c s l = .ok (.next { l with buf := l.buf + 2, tm := { l.tm with tm_hour := v } }) := by
  rcases valid with ⟨rfl, fits⟩ | ⟨rfl, fits⟩
  · rw [convHour_digits (.inl rfl) (by omega) at_buf]
    simp [fits]
  · rw [convHour_digits (.inr (.inl rfl)) (by omega) at_buf]
    simp [fits]

/-- `%p` on the locale's string for before noon. -/
theorem convAmPm_am (lang : Langinfo) (early : l.tm.tm_hour ≤ 12)
    (at_buf : s.chars.drop l.buf = lang.am_str.chars ++ rest) :
    convAmPm lang s l = .ok (.next { l with
      buf := l.buf + lang.am_str.chars.length
      tm := { l.tm with tm_hour := if l.tm.tm_hour = 12 then 0 else l.tm.tm_hour } }) := by
  simp only [convAmPm, show ¬(l.tm.tm_hour > 12) by omega, if_false, CStr.strncasecmp_append at_buf,
    ok_bind, if_true]
  rfl

/-- `%p` on the locale's string for after noon, at the end of the input, when the
string for before noon does not start it. -/
theorem convAmPm_pm (lang : Langinfo) (early : l.tm.tm_hour ≤ 12) (within : l.buf ≤ s.chars.length)
    (at_buf : s.chars.drop l.buf = lang.pm_str.chars)
    (distinct : ¬lang.am_str.chars.map tolower <+: lang.pm_str.chars.map tolower) :
    convAmPm lang s l = .ok (.next { l with
      buf := l.buf + lang.pm_str.chars.length
      tm := { l.tm with tm_hour := if l.tm.tm_hour ≠ 12 then l.tm.tm_hour + 12 else l.tm.tm_hour } }) := by
  have pm : s.chars.drop l.buf = lang.pm_str.chars ++ [] := by rw [at_buf, List.append_nil]
  simp only [convAmPm, show ¬(l.tm.tm_hour > 12) by omega, if_false,
    CStr.strncasecmp_not_prefix lang.am_str.no_nul within at_buf distinct, CStr.strncasecmp_append pm,
    ok_bind, Bool.false_eq_true, if_true]
  rfl

/-- `%z` on a sign and four digits `o`, `hhmm`: accepted when the minutes are
below 60 and the offset at most 14 hours east or 12 hours west. -/
theorem convOffset_pad {west : Bool} {o : Nat} (small : o < 10000)
    (at_buf : s.chars.drop l.buf = (if west then '-' else '+') :: (pad 4 o ++ rest)) :
    convOffset s l = .ok (if o > 1400 ∨ (west ∧ o > 1200) ∨ o % 100 ≥ 60 then l.null
      else .next { l with
        buf := l.buf + 1 + 4
        gmt := true
        tm := { l.tm with
          tm_hour := l.tm.tm_hour - (if west then -1 else 1) * ((o / 100 : Nat) : Int)
          tm_min := l.tm.tm_min - (if west then -1 else 1) * ((o % 100 : Nat) : Int) } }) := by
  have digits := zoneDigits_pad 4 o 0 (l.buf + 1) (CStr.drop_succ_of_drop at_buf)
  rw [Nat.zero_mul, Nat.zero_add, Nat.mod_eq_of_lt (show o < 10 ^ 4 from small)] at digits
  cases west <;> simp only [convOffset, CStr.charAt_of_drop at_buf, Bool.false_eq_true, ↓reduceIte, ne_eq,
    pure_eq_ok, digits, Int.reduceNeg, ite_eq_left_iff, reduceCtorEq, imp_false, Decidable.not_not,
    ite_mul, neg_mul, one_mul, ok_bind, not_true_eq_false, Char.reduceEq, not_false_eq_true, and_true,
    false_and, false_or, and_false, true_and, sub_neg_eq_add, apply_ite Except.ok]

theorem literal_plain {c : Char} (notSpace : isspace c = false)
    (at_buf : s.chars.drop l.buf = c :: rest) :
    literal s c l = .ok (.next { l with buf := l.buf + 1 }) := by
  simp [literal, notSpace, CStr.charAt_of_drop at_buf]

/-- A white-space character of the format skips the input's white space, the
whole run of it, possibly empty. -/
theorem literal_isspace {c : Char} (space : isspace c = true) (within : l.buf ≤ s.chars.length) :
    literal s c l = .ok (.next { l with buf := l.buf + ((s.chars.drop l.buf).takeWhile isspace).length }) := by
  have notNul : (fun b => decide (b ≠ '\x00') && isspace b) = isspace := funext fun b => by
    by_cases nul : b = '\x00' <;> simp [nul]
  simp only [literal, space, if_true, notNul, s.span_eq isspace_nul within, ok_bind]
  rfl

/-- Any other character of the format must be the next character of the input. -/
theorem literal_notSpace {c : Char} (notSpace : isspace c = false) (nonNul : c ≠ '\x00')
    (within : l.buf ≤ s.chars.length) :
    literal s c l = .ok (if (s.chars.drop l.buf).head? = some c then .next { l with buf := l.buf + 1 }
      else l.null) := by
  cases at_buf : s.chars.drop l.buf with
  | nil =>
    have at_end : l.buf = s.chars.length := by have := List.drop_eq_nil_iff.mp at_buf; omega
    simp [literal, notSpace, at_end, CStr.charAt_length, nonNul, pure_eq_ok]
  | cons b rest =>
    by_cases same : b = c
    · simp [literal, notSpace, CStr.charAt_of_drop at_buf, same, pure_eq_ok]
    · simp [literal, notSpace, CStr.charAt_of_drop at_buf, same, Ne.symm same, pure_eq_ok]

theorem literal_space {d : Char} (notSpace : isspace d = false)
    (at_buf : s.chars.drop l.buf = ' ' :: d :: rest) :
    literal s ' ' l = .ok (.next { l with buf := l.buf + 1 }) := by
  have within : l.buf ≤ s.chars.length := by
    have := congrArg List.length at_buf
    simp only [List.length_drop, List.length_cons] at this
    omega
  rw [literal_isspace (c := ' ') rfl within, at_buf, List.takeWhile_cons_of_pos rfl,
    List.takeWhile_cons_of_neg (by simp [notSpace])]
  rfl

theorem literal_space_pad {w v : Nat} (at_buf : s.chars.drop l.buf = ' ' :: (pad (w + 1) v ++ rest)) :
    literal s ' ' l = .ok (.next { l with buf := l.buf + 1 }) :=
  literal_space (digitChar_spec _ (Nat.mod_lt _ (by decide))).2.2.1 at_buf

end Directives

section Loop

variable {fuel : Nat} {env : Env} {input fmt : CStr} {ptr : Nat} {l l' : Loc}

theorem scan_end (at_ptr : fmt.charAt ptr = .ok '\x00') :
    scan (fuel + 1) env input fmt ptr .top l = finish l := by
  simp [scan, at_ptr]

theorem scan_literal {c : Char} (at_ptr : fmt.charAt ptr = .ok c) (nonNul : c ≠ '\x00')
    (plain : c ≠ '%') (step : literal input c l = .ok (.next l')) :
    scan (fuel + 1) env input fmt ptr .top l = scan fuel env input fmt (ptr + 1) .top l' := by
  simp [scan, at_ptr, nonNul, plain, step]

theorem scan_literal_null {c : Char} {tm : Tm} {gmt : Bool} (at_ptr : fmt.charAt ptr = .ok c)
    (nonNul : c ≠ '\x00') (plain : c ≠ '%') (step : literal input c l = .ok (.null tm gmt)) :
    scan (fuel + 1) env input fmt ptr .top l = .ok ⟨none, tm, gmt⟩ := by
  simp [scan, at_ptr, nonNul, plain, step, pure_eq_ok]

theorem scan_percent (at_ptr : fmt.charAt ptr = .ok '%') :
    scan (fuel + 1) env input fmt ptr .top l = scan fuel env input fmt (ptr + 1) (.label false false) l := by
  simp [scan, at_ptr]

/-- The first modifier after a `%`. -/
theorem scan_modifier {c : Char} (at_ptr : fmt.charAt ptr = .ok c) (modifier : c = 'E' ∨ c = 'O') :
    scan (fuel + 1) env input fmt ptr (.label false false) l =
      scan fuel env input fmt (ptr + 1) (.label (c = 'E') (c = 'O')) l := by
  simp [scan, at_ptr, modifier]

theorem scan_convert {c : Char} {E O : Bool} (at_ptr : fmt.charAt ptr = .ok c)
    (modifier : c ≠ 'E' ∧ c ≠ 'O') (plain : nested env.langinfo c = none)
    (step : convert env input c O l = .ok (.next l')) :
    scan (fuel + 1) env input fmt ptr (.label E O) l = scan fuel env input fmt (ptr + 1) .top l' := by
  simp [scan, at_ptr, modifier, plain, step]

theorem scan_convert_null {c : Char} {E O : Bool} {tm : Tm} {gmt : Bool}
    (at_ptr : fmt.charAt ptr = .ok c) (modifier : c ≠ 'E' ∧ c ≠ 'O') (plain : nested env.langinfo c = none)
    (step : convert env input c O l = .ok (.null tm gmt)) :
    scan (fuel + 1) env input fmt ptr (.label E O) l = .ok ⟨none, tm, gmt⟩ := by
  simp [scan, at_ptr, modifier, plain, step, pure_eq_ok]

/-- A directive that parses the input with another format, when that call
returns the position `buf`. -/
theorem scan_nested {c : Char} {sub : CStr} {set : Flags → Flags} {E O : Bool} {buf : Nat} {tm : Tm}
    {gmt : Bool} (at_ptr : fmt.charAt ptr = .ok c) (modifier : c ≠ 'E' ∧ c ≠ 'O')
    (format : nested env.langinfo c = some (sub, set))
    (inner : scan fuel env input sub 0 .top (Loc.init l.buf l.tm l.gmt) = .ok ⟨some buf, tm, gmt⟩) :
    scan (fuel + 1) env input fmt ptr (.label E O) l =
      scan fuel env input fmt (ptr + 1) .top { l with buf, tm, gmt, flags := set l.flags } := by
  simp [scan, at_ptr, modifier, format, inner, resume]

end Loop

section Finish

/-- With no directive read, completing the date changes nothing. -/
theorem finish_init (buf : Nat) (tm : Tm) (gmt : Bool) :
    finish (Loc.init buf tm gmt) = .ok ⟨some buf, tm, gmt⟩ := rfl

/-- With no year read, completing the date changes nothing. -/
theorem finish_of_none {l : Loc} (century : l.century = -1) (year : l.year = -1)
    (noYear : l.flags.year = false) : finish l = .ok ⟨some l.buf, l.tm, l.gmt⟩ := by
  simp only [finish, setYear, century, year, ne_eq, not_true_eq_false, or_self, if_false,
    deriveYday, noYear, Bool.and_false, Bool.false_eq_true, pure_bind, deriveFields, Bool.false_and]
  rfl

theorem setYear_full (Y : Nat) (tm : Tm) :
    setYear ((Y / 100 : Nat) : Int) ((Y % 100 : Nat) : Int) tm = { tm with tm_year := (Y : Int) - 1900 } := by
  have century : ((Y / 100 : Nat) : Int) ≠ -1 := by omega
  have year : ((Y % 100 : Nat) : Int) ≠ -1 := by omega
  simp only [setYear, century, year, ne_eq, not_false_eq_true, true_or, if_true, if_false,
    TM_YEAR_BASE]
  congr 2
  omega

theorem isleap_year (Y : Nat) : isleap ((Y : Int) - 1900 + TM_YEAR_BASE) = isLeapYear Y := by
  rw [show (Y : Int) - 1900 + TM_YEAR_BASE = Y by simp [TM_YEAR_BASE], isleap_natCast]

theorem first_wday_of_year (Y : Nat) :
    first_wday_of ((Y : Int) - 1900 + TM_YEAR_BASE) = first_wday_of Y := by
  rw [show (Y : Int) - 1900 + TM_YEAR_BASE = Y by simp [TM_YEAR_BASE]]

theorem monthStart_month (leap : Bool) {m : Nat} (lo : 1 ≤ m) (hi : m ≤ 13) :
    monthStart leap ((m : Int) - 1) = .ok (daysBeforeMonth leap m) := by
  have entry := start_of_month_eq leap (m - 1) (by omega)
  rw [Nat.sub_add_cancel lo] at entry
  rw [show (m : Int) - 1 = ((m - 1 : Nat) : Int) by omega]
  simp [monthStart, entry, Int.ofNat_zero_le]

/-- `%y` alone: two digits are a year of 1969 to 2068. -/
theorem setYear_pivot {v : Nat} (small : v < 100) (tm : Tm) :
    setYear (-1) (v : Int) tm = { tm with tm_year := if (v : Int) < 69 then (v : Int) + 100 else v } := by
  simp only [setYear, show (v : Int) ≠ -1 by omega, ne_eq, not_false_eq_true, or_true, if_true,
    if_false, not_true_eq_false]

/-- The date from the year, the month and the day, once the year is set. -/
theorem finish_monthDay {l : Loc} {Y m : Nat}
    (year : setYear l.century l.year l.tm = { l.tm with tm_year := (Y : Int) - 1900 })
    (flags : l.flags = ⟨true, true, false, true, false⟩)
    (mon : l.tm.tm_mon = (m : Int) - 1) (lo : 1 ≤ m) (hi : m ≤ 12) :
    finish l = .ok ⟨some l.buf, { l.tm with
      tm_year := (Y : Int) - 1900
      tm_yday := (daysBeforeMonth (isLeapYear Y) m : Int) + (l.tm.tm_mday - 1)
      tm_wday := (first_wday_of Y +
        ((daysBeforeMonth (isLeapYear Y) m : Int) + (l.tm.tm_mday - 1))).tmod 7 }, l.gmt⟩ := by
  simp only [finish, year, deriveYday, flags, Bool.not_false, Bool.and_self, if_true, mon,
    isleap_year, monthStart_month _ lo (by omega), ok_bind]
  simp only [deriveFields, Bool.and_self, if_true, if_false, pure_bind, deriveWday,
    first_wday_of_year]
  rfl

/-- Only the year read: nothing else is derived. -/
theorem finish_yearOnly {l : Loc} {tm : Tm} (year : setYear l.century l.year l.tm = tm)
    (flags : l.flags = ⟨true, false, false, false, false⟩) (offset : l.day_offset = -1) :
    finish l = .ok ⟨some l.buf, tm, l.gmt⟩ := by
  simp only [finish, year, deriveYday, flags, offset, deriveFields]
  rfl

/-- The month search finds the month whose days hold the day of the year. -/
theorem deriveMonth_within {tm : Tm} {Y m : Nat} (year : tm.tm_year = (Y : Int) - 1900)
    (lo : 1 ≤ m) (hi : m ≤ 12) (after : daysBeforeMonth (isLeapYear Y) m ≤ tm.tm_yday)
    (before : tm.tm_yday < daysBeforeMonth (isLeapYear Y) (m + 1)) :
    deriveMonth tm = .ok { tm with tm_mon := (m : Int) - 1 } := by
  have found : monthSearch (isLeapYear Y) tm.tm_yday (start_of_month (isLeapYear Y)) 0 = .ok (0 + m) := by
    refine monthSearch_eq _ 0 m (fun k lt t entry => ?_) ⟨_, start_of_month_eq _ m (by omega), before⟩
    rw [start_of_month_eq _ k (by omega), Option.some.injEq] at entry
    subst entry
    exact le_trans (by exact_mod_cast daysBeforeMonth_mono _ lt) after
  simp only [deriveMonth, year, isleap_year, found, ok_bind, Nat.zero_add,
    show ¬(m > 12) by omega, if_false]
  rfl

theorem deriveMday_month {tm : Tm} {Y m : Nat} (year : tm.tm_year = (Y : Int) - 1900)
    (mon : tm.tm_mon = (m : Int) - 1) (lo : 1 ≤ m) (hi : m ≤ 12) :
    deriveMday tm = .ok { tm with tm_mday := tm.tm_yday - daysBeforeMonth (isLeapYear Y) m + 1 } := by
  simp only [deriveMday, year, mon, isleap_year, monthStart_month _ lo (by omega), ok_bind]
  rfl

/-- The date from the year and the day of the year. -/
theorem finish_yday {l : Loc} {Y m : Nat} (century : l.century = ((Y / 100 : Nat) : Int))
    (year : l.year = ((Y % 100 : Nat) : Int)) (flags : l.flags = ⟨true, false, true, false, false⟩)
    (lo : 1 ≤ m) (hi : m ≤ 12) (after : daysBeforeMonth (isLeapYear Y) m ≤ l.tm.tm_yday)
    (before : l.tm.tm_yday < daysBeforeMonth (isLeapYear Y) (m + 1)) :
    finish l = .ok ⟨some l.buf, { l.tm with
      tm_year := (Y : Int) - 1900
      tm_mon := (m : Int) - 1
      tm_mday := l.tm.tm_yday - daysBeforeMonth (isLeapYear Y) m + 1
      tm_wday := (first_wday_of Y + l.tm.tm_yday).tmod 7 }, l.gmt⟩ := by
  have month := @deriveMonth_within { l.tm with tm_year := (Y : Int) - 1900 } Y m rfl lo hi after before
  have mday := @deriveMday_month { l.tm with tm_year := (Y : Int) - 1900, tm_mon := (m : Int) - 1 } Y m
    rfl rfl lo hi
  simp only [finish, century, year, setYear_full, deriveYday, flags, Bool.not_true,
    Bool.false_and, Bool.false_eq_true, if_false, pure_bind, deriveFields, Bool.and_self, if_true,
    month, mday, ok_bind, deriveWday, first_wday_of_year]
  rfl

/-- A day of the year at or past the end of a common year takes the month
search past the last entry of the row. -/
theorem deriveMonth_past {tm : Tm} {Y : Nat} (year : tm.tm_year = (Y : Int) - 1900)
    (common : isLeapYear Y = false) (late : 365 ≤ tm.tm_yday) :
    deriveMonth tm = .error (.outOfRow false 13) := by
  have below : ∀ s ∈ start_of_month false, s ≤ tm.tm_yday := fun s mem => by
    simp only [start_of_month, List.mem_cons, List.mem_nil_iff, or_false] at mem
    omega
  simp only [deriveMonth, year, isleap_year, common, monthSearch_past _ 0 below]
  rfl

/-- The day of the year of a common year's day 366 faults in the month search. -/
theorem finish_yday_past {l : Loc} {Y : Nat} (century : l.century = ((Y / 100 : Nat) : Int))
    (year : l.year = ((Y % 100 : Nat) : Int)) (flags : l.flags = ⟨true, false, true, false, false⟩)
    (common : isLeapYear Y = false) (late : 365 ≤ l.tm.tm_yday) :
    finish l = .error (.outOfRow false 13) := by
  have month := @deriveMonth_past { l.tm with tm_year := (Y : Int) - 1900 } Y rfl common late
  simp only [finish, century, year, setYear_full, deriveYday, flags, Bool.not_true,
    Bool.false_and, Bool.false_eq_true, if_false, pure_bind, deriveFields, Bool.and_self, if_true,
    month]
  rfl

/-- The date from the year, the week and the weekday, with `yday` the day of the
year the week and the weekday give. -/
theorem finish_week {l : Loc} {Y m : Nat} {yday : Int} (century : l.century = ((Y / 100 : Nat) : Int))
    (year : l.year = ((Y % 100 : Nat) : Int)) (flags : l.flags = ⟨true, false, false, false, true⟩)
    (offset : l.day_offset ≠ -1)
    (notWeekZero : ¬(l.week_offset = 0 ∧ first_wday_of Y = l.day_offset))
    (tmp : (7 - first_wday_of Y + l.day_offset).tmod 7 + (l.week_offset - 1) * 7 +
      (l.tm.tm_wday - l.day_offset + 7).tmod 7 = yday)
    (nonneg : 0 ≤ yday) (lo : 1 ≤ m) (hi : m ≤ 12)
    (after : daysBeforeMonth (isLeapYear Y) m ≤ yday)
    (before : yday < daysBeforeMonth (isLeapYear Y) (m + 1)) :
    finish l = .ok ⟨some l.buf, { l.tm with
      tm_year := (Y : Int) - 1900
      tm_yday := yday
      tm_mon := (m : Int) - 1
      tm_mday := yday - daysBeforeMonth (isLeapYear Y) m + 1 }, l.gmt⟩ := by
  have month := @deriveMonth_within { l.tm with tm_year := (Y : Int) - 1900, tm_yday := yday } Y m
    rfl lo hi after before
  have mday := @deriveMday_month
    { l.tm with tm_year := (Y : Int) - 1900, tm_yday := yday, tm_mon := (m : Int) - 1 } Y m rfl rfl lo hi
  simp only [finish, century, year, setYear_full, deriveYday, flags, Bool.not_false,
    Bool.and_self, Bool.and_false, Bool.false_eq_true, if_false, if_true, offset, ne_eq,
    not_false_eq_true, first_wday_of_year, notWeekZero, tmp, show ¬yday < 0 by omega, false_and,
    pure_bind, deriveFields, month, mday, ok_bind]
  rfl

end Finish

end Strptime
end Userland
