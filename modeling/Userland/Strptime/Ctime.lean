import Userland.Strptime.Fields
import Userland.Strptime.Names
import Userland.Strptime.RoundTrip

/-!
# `%c` in the POSIX locale

`%c` parses the input with the locale's `D_T_FMT`, `"%a %b %e %H:%M:%S %Y"` in
the POSIX locale, and then sets the flags of the weekday, the month, the day and
the year, so the date is completed twice: by the nested call and by the outer
one.  `%a` and `%b` try the full names before the abbreviations, and `Tue` starts
`Tuesday` while `May` is both; which name the search stops at depends only on
the abbreviation and the blank after it, and `searchOn` computes it from those.
For every date from year 0 to 9999 and every time of day, `"%c"` reads back what
`strftime` writes for it.
-/

namespace Userland
namespace Strptime

/-! ## The name searches on an abbreviation and a blank -/

/-- The name followed by a blank. -/
def CStr.blanked (n : CStr) : CStr := ⟨n.chars ++ [' '], by simp [n.no_nul]⟩

/-- What `findName` gives on every input that starts with `key`, when `key`
alone decides it: the first name that starts `key`, after names apart from it;
`none` when a name before it is neither. -/
def searchOn (key : CStr) : List (Nat × CStr) → Option (Option (Nat × Nat))
  | [] => some none
  | (i, ex) :: names =>
    if ex.chars <+: key.chars then some (some (i, ex.chars.length))
    else if Apart ex key then searchOn key names else none

theorem findName_searchOn {input key : CStr} {buf : Nat} {rest : List Char}
    (at_buf : input.chars.drop buf = key.chars ++ rest) :
    ∀ {names : List (Nat × CStr)} {r : Option (Nat × Nat)}, searchOn key names = some r →
      findName input buf names = .ok r
  | [], _, search => by
    cases search
    rfl
  | (i, ex) :: names, r, search => by
    unfold searchOn at search
    by_cases starts : ex.chars <+: key.chars
    · obtain ⟨t, split⟩ := starts
      rw [if_pos ⟨t, split⟩] at search
      cases search
      have at_ex : input.chars.drop buf = ex.chars ++ (t ++ rest) := by rw [at_buf, ← split, List.append_assoc]
      simp [findName, CStr.strncasecmp_append at_ex, pure_eq_ok]
    · rw [if_neg starts] at search
      by_cases apart : Apart ex key
      · rw [if_pos apart] at search
        simp only [findName, strncasecmp_apart at_buf apart, ok_bind, Bool.false_eq_true, if_false]
        exact findName_searchOn at_buf search
      · rw [if_neg apart] at search
        cases search

/-- The search of `%b` without the modifier `O`: the full names, then the
abbreviations. -/
def monthOn (lang : Langinfo) (key : CStr) : Option (Option (Nat × Nat)) :=
  match searchOn key ((List.range 12).map fun i => (i, lang.mon i)) with
  | some none => searchOn key ((List.range 12).map fun i => (i, lang.abmon i))
  | r => r

theorem findMonth_monthOn {lang : Langinfo} (c : Char) {input key : CStr} {buf : Nat} {rest : List Char}
    (at_buf : input.chars.drop buf = key.chars ++ rest) {r : Option (Nat × Nat)}
    (search : monthOn lang key = some r) : findMonth lang c false input buf = .ok r := by
  have full : monthNames lang c false = (List.range 12).map fun i => (i, lang.mon i) := by
    simp [monthNames]
  unfold monthOn at search
  rw [findMonth, full]
  rcases first : searchOn key ((List.range 12).map fun i => (i, lang.mon i)) with _ | _ | hit
  · rw [first] at search
    cases search
  · rw [first] at search
    simp only [findName_searchOn at_buf first, ok_bind, Bool.false_eq_true, if_false]
    exact findName_searchOn at_buf search
  · rw [first] at search
    cases search
    simp [findName_searchOn at_buf first, pure_eq_ok]

/-! ## The POSIX locale -/

theorem posix_day_search : ∀ i < 7,
    searchOn (Langinfo.posix.abday i).blanked (dayNames Langinfo.posix) = some (some (i, 3)) := by
  decide

theorem posix_month_search : ∀ i < 12,
    monthOn Langinfo.posix (Langinfo.posix.abmon i).blanked = some (some (i, 3)) := by
  decide

theorem posix_abday_length : ∀ i < 7, (Langinfo.posix.abday i).chars.length = 3 := by decide

/-- The abbreviated month names of the POSIX locale are three letters long and
start with no white space. -/
theorem posix_abmon_word : ∀ i < 12, (Langinfo.posix.abmon i).chars.length = 3 ∧
    ∀ c ∈ (Langinfo.posix.abmon i).chars.head?, isspace c = false := by
  decide

theorem blanked_drop {input n : CStr} {buf : Nat} {rest : List Char}
    (at_buf : input.chars.drop buf = n.chars ++ ' ' :: rest) : input.chars.drop buf = n.blanked.chars ++ rest := by
  rw [at_buf, CStr.blanked, List.append_assoc, List.singleton_append]

section Directives

variable {input : CStr} {l : Loc} {rest : List Char}

/-- `%a` on an abbreviated day name of the POSIX locale and a blank. -/
theorem convWeekday_posix {i : Nat} (day : i < 7)
    (at_buf : input.chars.drop l.buf = (Langinfo.posix.abday i).chars ++ ' ' :: rest) :
    convWeekday Langinfo.posix input l = .ok (.next { l with
      buf := l.buf + 3, tm := { l.tm with tm_wday := i }, flags := { l.flags with wday := true } }) := by
  simp only [convWeekday, findName_searchOn (blanked_drop at_buf) (posix_day_search i day), ok_bind]
  rfl

/-- `%b` on an abbreviated month name of the POSIX locale and a blank. -/
theorem convMonthName_posix (c : Char) {i : Nat} (month : i < 12)
    (at_buf : input.chars.drop l.buf = (Langinfo.posix.abmon i).chars ++ ' ' :: rest) :
    convMonthName Langinfo.posix c false input l = .ok (.next { l with
      buf := l.buf + 3, tm := { l.tm with tm_mon := i }, flags := { l.flags with month := true } }) := by
  simp only [convMonthName, findMonth_monthOn c (blanked_drop at_buf) (posix_month_search i month), ok_bind]
  rfl

/-- A blank of the format before a word of the input that starts with no white
space. -/
theorem literal_blank_word {w : List Char} (nonempty : w ≠ []) (word : ∀ c ∈ w.head?, isspace c = false)
    (at_buf : input.chars.drop l.buf = ' ' :: (w ++ rest)) :
    literal input ' ' l = .ok (.next { l with buf := l.buf + 1 }) := by
  cases w with
  | nil => exact absurd rfl nonempty
  | cons c w => exact literal_space (word c rfl) at_buf

/-- With the weekday read too, completing the date sets the year and the day of
the year and keeps the weekday. -/
theorem finish_monthDay_named {Y m : Nat}
    (year : setYear l.century l.year l.tm = { l.tm with tm_year := (Y : Int) - 1900 })
    (flags : l.flags = ⟨true, true, false, true, true⟩)
    (mon : l.tm.tm_mon = (m : Int) - 1) (lo : 1 ≤ m) (hi : m ≤ 12) :
    finish l = .ok ⟨some l.buf, { l.tm with
      tm_year := (Y : Int) - 1900
      tm_yday := (daysBeforeMonth (isLeapYear Y) m : Int) + (l.tm.tm_mday - 1) }, l.gmt⟩ := by
  simp only [finish, year, deriveYday, flags, Bool.not_false, Bool.and_self, if_true, mon,
    isleap_year, monthStart_month _ lo (by omega), ok_bind]
  simp only [deriveFields, Bool.and_self, if_true, pure_bind]
  rfl

end Directives

/-! ## `"%a %b %e %H:%M:%S %Y"` -/

/-- What `strftime` writes for `%c` in the POSIX locale, `"%a %b %e %H:%M:%S %Y"`,
at the date `d` and the time `h:m:s`. -/
def Date.ctime (d : Date) (h m s : Nat) : List Char :=
  (Langinfo.posix.abday d.wday).chars ++ ' ' :: ((Langinfo.posix.abmon (d.month - 1)).chars ++
    ' ' :: (blankPad d.day ++ ' ' :: (pad 2 h ++ ':' :: (pad 2 m ++ ':' :: (pad 2 s ++ ' ' :: pad 4 d.year)))))

theorem Date.nul_not_mem_ctime (d : Date) (h m s : Nat) : '\x00' ∉ d.ctime h m s := by
  have blank : '\x00' ∉ blankPad d.day := by
    unfold blankPad
    split <;> simp [nul_not_mem_pad]
  simp [Date.ctime, (Langinfo.posix.abday _).no_nul, (Langinfo.posix.abmon _).no_nul, blank, nul_not_mem_pad]

/-- What `strftime` writes for `%c`, as a string. -/
def Date.ctimeStr (d : Date) (h m s : Nat) : CStr := ⟨d.ctime h m s, d.nul_not_mem_ctime h m s⟩

theorem blankPad_length (v : Nat) : (blankPad v).length = 2 := by
  unfold blankPad
  split <;> simp [pad_length]

section Run

variable {env : Env} {input : CStr} {l : Loc} {rest : List Char}

/-- `" %e"`: the blank of the format skips the blank `strftime` puts before a
one-digit day, and `%e` reads the digits. -/
theorem scan_ctime_day {d : Nat} (lo : 1 ≤ d) (hi : d ≤ 31)
    (at_buf : input.chars.drop l.buf = ' ' :: (blankPad d ++ ' ' :: rest)) (fuel : Nat) :
    scan (fuel + 3) env input Langinfo.posix.d_t_fmt 5 .top l =
      scan fuel env input Langinfo.posix.d_t_fmt 8 .top { l with
        buf := l.buf + 3, tm := { l.tm with tm_mday := d }, flags := { l.flags with mday := true } } := by
  have within : l.buf ≤ input.chars.length := by
    have := congrArg List.length at_buf
    simp only [List.length_drop, List.length_cons] at this
    omega
  refine (scan_literal (show Langinfo.posix.d_t_fmt.charAt 5 = .ok ' ' from rfl) (by decide) (by decide)
    (literal_isspace rfl within)).trans ?_
  refine (scan_percent (show Langinfo.posix.d_t_fmt.charAt 6 = .ok '%' from rfl)).trans ?_
  have read : Langinfo.posix.d_t_fmt.charAt 7 = .ok 'e' := rfl
  have blank : isspace ' ' = true := rfl
  by_cases small : d < 10
  · rw [blankPad, if_pos small] at at_buf
    obtain ⟨-, -, notSpace, -⟩ := digitChar_spec (d % 10) (Nat.mod_lt _ (by decide))
    have run : (input.chars.drop l.buf).takeWhile isspace = [' ', ' '] := by
      rw [at_buf]
      simp [pad, notSpace, List.takeWhile_cons, blank]
    have at_digit : input.chars.drop (l.buf + 2) = pad 1 d ++ ' ' :: rest :=
      CStr.drop_succ_of_drop (CStr.drop_succ_of_drop (at_buf.trans (List.cons_append _ _ _)))
    have skip : skipBlankE input (l.buf + 2) = .ok (l.buf + 2) := by
      simp [skipBlankE_of_drop at_digit, notSpace]
    rw [run]
    refine scan_convert read ⟨by decide, by decide⟩ rfl ?_
    show (skipBlankE input (l.buf + 2) >>= fun buf => convMday input buf _) = _
    simp only [skip, ok_bind, convMday, number_digit_stop small at_digit (fun _ same => by cases same; rfl),
      if_neg (show ¬(d = 0 ∨ d > 31) by omega)]
    rfl
  · rw [blankPad, if_neg small] at at_buf
    obtain ⟨-, -, notSpace, -⟩ := digitChar_spec (d / 10 % 10) (Nat.mod_lt _ (by decide))
    have run : (input.chars.drop l.buf).takeWhile isspace = [' '] := by
      rw [at_buf]
      simp [pad, List.takeWhile_cons, blank, notSpace]
    have at_digits : input.chars.drop (l.buf + 1) = pad 2 d ++ ' ' :: rest := CStr.drop_succ_of_drop at_buf
    have skip : skipBlankE input (l.buf + 1) = .ok (l.buf + 1) := by
      simp [skipBlankE_of_drop at_digits, notSpace]
    rw [run]
    refine scan_convert read ⟨by decide, by decide⟩ rfl ?_
    show (skipBlankE input (l.buf + 1) >>= fun buf => convMday input buf _) = _
    rw [skip, ok_bind]
    refine (convMday_digits (l := { l with buf := l.buf + 1 }) (by omega) at_digits).trans ?_
    rw [if_pos ⟨lo, hi⟩]

/-- `" %H:%M:%S %Y"` and the end of the format. -/
theorem scan_ctime_time {Y h m s : Nat} (small : Y < 10000) (hour : h ≤ 23) (minute : m ≤ 59) (second : s ≤ 60)
    (at_buf : input.chars.drop l.buf =
      ' ' :: (pad 2 h ++ ':' :: (pad 2 m ++ ':' :: (pad 2 s ++ ' ' :: (pad 4 Y ++ rest))))) (fuel : Nat) :
    scan (fuel + 13) env input Langinfo.posix.d_t_fmt 8 .top l =
      finish { l with
        buf := l.buf + 14, tm := { l.tm with tm_hour := h, tm_min := m, tm_sec := s },
        century := ((Y / 100 : Nat) : Int), year := ((Y % 100 : Nat) : Int),
        flags := { l.flags with year := true } } := by
  have at1 := CStr.drop_succ_of_drop at_buf
  have at3 := drop_pad_of_drop at1
  have at4 := CStr.drop_succ_of_drop at3
  have at6 := drop_pad_of_drop at4
  have at7 := CStr.drop_succ_of_drop at6
  have at9 := drop_pad_of_drop at7
  have at10 := CStr.drop_succ_of_drop at9
  refine (scan_literal (show Langinfo.posix.d_t_fmt.charAt 8 = .ok ' ' from rfl) (by decide) (by decide)
    (literal_space_pad at_buf)).trans ?_
  refine (scan_percent (show Langinfo.posix.d_t_fmt.charAt 9 = .ok '%' from rfl)).trans ?_
  refine (scan_convert (show Langinfo.posix.d_t_fmt.charAt 10 = .ok 'H' from rfl) ⟨by decide, by decide⟩ rfl
    (convHour_pad 'H' (.inl ⟨rfl, hour⟩) at1)).trans ?_
  refine (scan_literal (show Langinfo.posix.d_t_fmt.charAt 11 = .ok ':' from rfl) (by decide) (by decide)
    (literal_plain rfl at3)).trans ?_
  refine (scan_percent (show Langinfo.posix.d_t_fmt.charAt 12 = .ok '%' from rfl)).trans ?_
  refine (scan_convert (show Langinfo.posix.d_t_fmt.charAt 13 = .ok 'M' from rfl) ⟨by decide, by decide⟩ rfl
    (convMinSec_pad_min minute at4)).trans ?_
  refine (scan_literal (show Langinfo.posix.d_t_fmt.charAt 14 = .ok ':' from rfl) (by decide) (by decide)
    (literal_plain rfl at6)).trans ?_
  refine (scan_percent (show Langinfo.posix.d_t_fmt.charAt 15 = .ok '%' from rfl)).trans ?_
  refine (scan_convert (show Langinfo.posix.d_t_fmt.charAt 16 = .ok 'S' from rfl) ⟨by decide, by decide⟩ rfl
    (convMinSec_pad_sec second at7)).trans ?_
  refine (scan_literal (show Langinfo.posix.d_t_fmt.charAt 17 = .ok ' ' from rfl) (by decide) (by decide)
    (literal_space_pad at9)).trans ?_
  refine (scan_percent (show Langinfo.posix.d_t_fmt.charAt 18 = .ok '%' from rfl)).trans ?_
  refine (scan_convert (show Langinfo.posix.d_t_fmt.charAt 19 = .ok 'Y' from rfl) ⟨by decide, by decide⟩ rfl
    (convYear_pad small at10)).trans ?_
  exact scan_end (show Langinfo.posix.d_t_fmt.charAt 20 = .ok '\x00' from rfl)

variable (posix : env.langinfo = Langinfo.posix)
include posix

theorem convert_posix_a (O : Bool) (l : Loc) : convert env input 'a' O l = convWeekday Langinfo.posix input l := by
  rw [← posix]
  rfl

theorem convert_posix_b (O : Bool) (l : Loc) :
    convert env input 'b' O l = convMonthName Langinfo.posix 'b' O input l := by
  rw [← posix]
  rfl

/-- `"%a %b"`: the abbreviated day and month names. -/
theorem scan_ctime_names {i j : Nat} (day : i < 7) (month : j < 12)
    (at_buf : input.chars.drop l.buf = (Langinfo.posix.abday i).chars ++ ' ' ::
      ((Langinfo.posix.abmon j).chars ++ ' ' :: rest)) (fuel : Nat) :
    scan (fuel + 5) env input Langinfo.posix.d_t_fmt 0 .top l =
      scan fuel env input Langinfo.posix.d_t_fmt 5 .top { l with
        buf := l.buf + 7, tm := { l.tm with tm_wday := i, tm_mon := j },
        flags := { l.flags with wday := true, month := true } } := by
  obtain ⟨three, word⟩ := posix_abmon_word j month
  have at_blank : input.chars.drop (l.buf + 3) = ' ' :: ((Langinfo.posix.abmon j).chars ++ ' ' :: rest) := by
    rw [← posix_abday_length i day, drop_append_of_drop at_buf]
  have at_month : input.chars.drop (l.buf + 3 + 1) = (Langinfo.posix.abmon j).chars ++ ' ' :: rest :=
    CStr.drop_succ_of_drop at_blank
  refine (scan_percent (show Langinfo.posix.d_t_fmt.charAt 0 = .ok '%' from rfl)).trans ?_
  refine (scan_convert (show Langinfo.posix.d_t_fmt.charAt 1 = .ok 'a' from rfl) ⟨by decide, by decide⟩ rfl
    ((convert_posix_a posix _ _).trans (convWeekday_posix day at_buf))).trans ?_
  refine (scan_literal (show Langinfo.posix.d_t_fmt.charAt 2 = .ok ' ' from rfl) (by decide) (by decide)
    (literal_blank_word (by rw [← List.length_pos, three]; decide) word at_blank)).trans ?_
  refine (scan_percent (show Langinfo.posix.d_t_fmt.charAt 3 = .ok '%' from rfl)).trans ?_
  exact scan_convert (show Langinfo.posix.d_t_fmt.charAt 4 = .ok 'b' from rfl) ⟨by decide, by decide⟩ rfl
    ((convert_posix_b posix _ _).trans (convMonthName_posix 'b' month at_month))

/-- The call `%c` makes: `D_T_FMT` on what `strftime` writes for it, up to the
end of the format and the completion of the date. -/
theorem scan_ctime (d : Date) (small : d.year < 10000) {h m s : Nat} (hour : h ≤ 23) (minute : m ≤ 59)
    (second : s ≤ 60) {buf : Nat} (text : input.chars.drop buf = d.ctime h m s ++ rest) (tm : Tm) (gmt : Bool)
    (fuel : Nat) :
    scan (fuel + 21) env input Langinfo.posix.d_t_fmt 0 .top (Loc.init buf tm gmt) =
      .ok ⟨some (buf + 24), { d.toTm tm with tm_hour := h, tm_min := m, tm_sec := s }, gmt⟩ := by
  have month : d.month - 1 < 12 := by have := d.month_le; omega
  simp only [Date.ctime, List.append_assoc, List.cons_append] at text
  have at_day := drop_append_of_drop (CStr.drop_succ_of_drop (drop_append_of_drop text))
  rw [posix_abday_length _ d.wday_lt, (posix_abmon_word _ month).1] at at_day
  have at_time := drop_append_of_drop (CStr.drop_succ_of_drop at_day)
  rw [blankPad_length] at at_time
  refine (scan_ctime_names posix d.wday_lt month text (fuel + 16)).trans ?_
  refine (scan_ctime_day d.day_pos (by have := monthLength_le (isLeapYear d.year) d.month; have := d.day_le; omega)
    at_day (fuel + 13)).trans ?_
  refine (scan_ctime_time small hour minute second at_time fuel).trans ?_
  have mon : ((d.month - 1 : Nat) : Int) = (d.month : Int) - 1 := by have := d.month_pos; omega
  rw [finish_monthDay_named (setYear_full _ _) rfl mon d.month_pos d.month_le]
  simp only [Date.toTm, mon, d.yday_natCast]
  rfl

/-- `"%c"`. -/
def formatc : CStr := lit "%c" (by decide)

/-- In the POSIX locale, for every date from year 0 to 9999 and every time of
day, `"%c"` reads back what `strftime` writes for `%c`: the 24 characters, the
date's fields with its weekday and day of the year, and the time. -/
theorem strptime_reads_back_ctime (d : Date) (small : d.year < 10000) {h m s : Nat} (hour : h ≤ 23)
    (minute : m ≤ 59) (second : s ≤ 60) {buf : Nat} (text : input.chars.drop buf = d.ctime h m s ++ rest)
    (tm : Tm) (gmt : Bool) (fuel : Nat) :
    _strptime (fuel + 23) env input buf formatc tm gmt =
      .ok ⟨some (buf + 24), { d.toTm tm with tm_hour := h, tm_min := m, tm_sec := s }, gmt⟩ := by
  have mon : (d.toTm tm).tm_mon = (d.month : Int) - 1 := rfl
  unfold _strptime
  refine (scan_percent (show formatc.charAt 0 = .ok '%' from rfl)).trans ?_
  refine (scan_nested (show formatc.charAt 1 = .ok 'c' from rfl) ⟨by decide, by decide⟩ (by rw [posix]; rfl)
    (scan_ctime posix d small hour minute second text tm gmt fuel)).trans ?_
  refine (scan_end (show formatc.charAt 2 = .ok '\x00' from rfl)).trans ?_
  rw [finish_monthDay_named rfl rfl mon d.month_pos d.month_le]
  simp only [Date.toTm, d.yday_natCast]

end Run

example : _strptime 23 Env.posix (lit "Wed May 30 23:59:60 0001" (by decide)) 0 formatc
    ⟨0, 0, 0, 0, 0, 0, 0, 0, 0⟩ false = .ok ⟨some 24, ⟨60, 59, 23, 30, 4, -1899, 3, 149, 0⟩, false⟩ := rfl

/-- `"%c"` on what `strftime` writes for 29 February 2024 at 14:03:09,
`"Thu Feb 29 14:03:09 2024"`. -/
theorem strptime_reads_back_ctime_leap_day :
    Env.posix.langinfo = Langinfo.posix ∧ leapDay.year < 10000 ∧ 14 ≤ 23 ∧ 3 ≤ 59 ∧ 9 ≤ 60 ∧
      (leapDay.ctimeStr 14 3 9).chars.drop 0 = leapDay.ctime 14 3 9 ++ [] ∧
      _strptime 23 Env.posix (leapDay.ctimeStr 14 3 9) 0 formatc ⟨0, 0, 0, 0, 0, 0, 0, 0, 0⟩ false =
        .ok ⟨some 24, { leapDay.toTm ⟨0, 0, 0, 0, 0, 0, 0, 0, 0⟩ with tm_hour := 14, tm_min := 3, tm_sec := 9 },
          false⟩ :=
  have text : (leapDay.ctimeStr 14 3 9).chars.drop 0 = leapDay.ctime 14 3 9 ++ [] := by
    rw [List.drop_zero, List.append_nil]
    rfl
  ⟨rfl, by decide, by decide, by decide, by decide, text,
    strptime_reads_back_ctime rfl leapDay (by decide) (by decide) (by decide) (by decide) text _ false 0⟩

end Strptime
end Userland
