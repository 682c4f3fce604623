import Userland.Strptime.Run

/-!
# Decoding what `strftime` encoded

`_strptime` undoes `strftime` for the formats `"%Y-%m-%d"`, `"%Y %j"`,
`"%Y %U %w"` and `"%Y %W %u"`: on the rendering of any date of the years 1 to
9999, for any `tm` it starts from, it consumes the whole input and sets the
year, the month, the day of the month, the day of the year and the weekday of
the date.  Each format takes another of the derivation paths: from the month
and the day, from the day of the year, and from the week and the weekday.

Year 0 is the exception: Gauss's formula, evaluated with C's `%`, puts
1 January of year 0 on a Sunday, so every weekday of that year comes out one
day late.  And `"%Y %j"` accepts day 366 of a common year, which takes the
month search past the last entry of its row of `start_of_month`.
-/

namespace Userland
namespace Strptime

/-- `"%Y-%m-%d"`. -/
def formatYmd : CStr := lit "%Y-%m-%d" (by decide)

/-- `"%Y %j"`. -/
def formatYj : CStr := lit "%Y %j" (by decide)

/-- `"%Y %U %w"`. -/
def formatYUw : CStr := lit "%Y %U %w" (by decide)

/-- `"%Y %W %u"`. -/
def formatYWu : CStr := lit "%Y %W %u" (by decide)

section Runs

/-- `"%Y-%m-%d"` on a year, a month and a day. -/
theorem run_formatYmd (env : Env) {input : CStr} {Y m d : Nat}
    (text : input.chars = pad 4 Y ++ '-' :: (pad 2 m ++ '-' :: pad 2 d)) (small : Y < 10000)
    (mlo : 1 ≤ m) (mhi : m ≤ 12) (dlo : 1 ≤ d) (dhi : d ≤ 31) (tm : Tm) (gmt : Bool) (fuel : Nat) :
    _strptime (fuel + 9) env input 0 formatYmd tm gmt = .ok ⟨some 10, { tm with
      tm_mon := (m : Int) - 1
      tm_mday := d
      tm_year := (Y : Int) - 1900
      tm_yday := (daysBeforeMonth (isLeapYear Y) m : Int) + ((d : Int) - 1)
      tm_wday := (first_wday_of Y +
        ((daysBeforeMonth (isLeapYear Y) m : Int) + ((d : Int) - 1))).tmod 7 }, gmt⟩ := by
  have at0 : input.chars.drop 0 = pad 4 Y ++ '-' :: (pad 2 m ++ '-' :: pad 2 d) := by
    rw [List.drop_zero, text]
  have at4 := drop_pad_of_drop at0
  have at5 := CStr.drop_succ_of_drop at4
  have at7 := drop_pad_of_drop at5
  have at8 : input.chars.drop (0 + 4 + 1 + 2 + 1) = pad 2 d ++ [] := by
    rw [CStr.drop_succ_of_drop at7, List.append_nil]
  unfold _strptime
  refine (scan_percent (show formatYmd.charAt 0 = .ok '%' from rfl)).trans ?_
  refine (scan_convert (show formatYmd.charAt 1 = .ok 'Y' from rfl) ⟨by decide, by decide⟩ rfl
    (convYear_pad small at0)).trans ?_
  refine (scan_literal (show formatYmd.charAt 2 = .ok '-' from rfl) (by decide) (by decide)
    (literal_plain rfl at4)).trans ?_
  refine (scan_percent (show formatYmd.charAt 3 = .ok '%' from rfl)).trans ?_
  refine (scan_convert (show formatYmd.charAt 4 = .ok 'm' from rfl) ⟨by decide, by decide⟩ rfl
    (convMonth_pad mlo mhi at5)).trans ?_
  refine (scan_literal (show formatYmd.charAt 5 = .ok '-' from rfl) (by decide) (by decide)
    (literal_plain rfl at7)).trans ?_
  refine (scan_percent (show formatYmd.charAt 6 = .ok '%' from rfl)).trans ?_
  refine (scan_convert (show formatYmd.charAt 7 = .ok 'd' from rfl) ⟨by decide, by decide⟩ rfl
    (convMday_pad dlo dhi at8)).trans ?_
  refine (scan_end (show formatYmd.charAt 8 = .ok '\x00' from rfl)).trans ?_
  exact finish_monthDay (setYear_full _ _) rfl rfl mlo mhi

/-- `"%Y %j"` on a year and a day of the year, up to the end of the format. -/
theorem scan_formatYj (env : Env) {input : CStr} {Y j : Nat}
    (text : input.chars = pad 4 Y ++ ' ' :: pad 3 j) (small : Y < 10000) (jlo : 1 ≤ j) (jhi : j ≤ 366)
    (tm : Tm) (gmt : Bool) (fuel : Nat) :
    _strptime (fuel + 6) env input 0 formatYj tm gmt =
      finish { Loc.init 8 { tm with tm_yday := (j : Int) - 1 } gmt with
        flags := ⟨true, false, true, false, false⟩
        century := ((Y / 100 : Nat) : Int)
        year := ((Y % 100 : Nat) : Int) } := by
  have at0 : input.chars.drop 0 = pad 4 Y ++ ' ' :: pad 3 j := by rw [List.drop_zero, text]
  have at4 := drop_pad_of_drop at0
  have at5 : input.chars.drop (0 + 4 + 1) = pad 3 j ++ [] := by
    rw [CStr.drop_succ_of_drop at4, List.append_nil]
  unfold _strptime
  refine (scan_percent (show formatYj.charAt 0 = .ok '%' from rfl)).trans ?_
  refine (scan_convert (show formatYj.charAt 1 = .ok 'Y' from rfl) ⟨by decide, by decide⟩ rfl
    (convYear_pad small at0)).trans ?_
  refine (scan_literal (show formatYj.charAt 2 = .ok ' ' from rfl) (by decide) (by decide)
    (literal_space_pad (show input.chars.drop (0 + 4) = ' ' :: (pad 3 j ++ []) by simpa using at4))).trans ?_
  refine (scan_percent (show formatYj.charAt 3 = .ok '%' from rfl)).trans ?_
  refine (scan_convert (show formatYj.charAt 4 = .ok 'j' from rfl) ⟨by decide, by decide⟩ rfl
    (convYday_pad jlo jhi at5)).trans ?_
  exact scan_end (show formatYj.charAt 5 = .ok '\x00' from rfl)

/-- `"%Y %j"` on a year and a day of the year in month `m`. -/
theorem run_formatYj (env : Env) {input : CStr} {Y j m : Nat}
    (text : input.chars = pad 4 Y ++ ' ' :: pad 3 j) (small : Y < 10000) (jlo : 1 ≤ j) (jhi : j ≤ 366)
    (mlo : 1 ≤ m) (mhi : m ≤ 12) (after : daysBeforeMonth (isLeapYear Y) m ≤ j - 1)
    (before : j - 1 < daysBeforeMonth (isLeapYear Y) (m + 1)) (tm : Tm) (gmt : Bool) (fuel : Nat) :
    _strptime (fuel + 6) env input 0 formatYj tm gmt = .ok ⟨some 8, { tm with
      tm_yday := (j : Int) - 1
      tm_year := (Y : Int) - 1900
      tm_mon := (m : Int) - 1
      tm_mday := (j : Int) - 1 - daysBeforeMonth (isLeapYear Y) m + 1
      tm_wday := (first_wday_of Y + ((j : Int) - 1)).tmod 7 }, gmt⟩ := by
  rw [scan_formatYj env text small jlo jhi,
    finish_yday rfl rfl rfl mlo mhi (by simp only [Loc.init]; omega)
      (by simp only [Loc.init]; omega)]
  rfl

/-- `"%Y %j"` on day 366 of a common year: the month search passes the row's last
entry, the length of the year, and tests the entry after it. -/
theorem strptime_common_day_366_leaves_row (env : Env) {input : CStr} {Y : Nat}
    (text : input.chars = pad 4 Y ++ ' ' :: pad 3 366) (small : Y < 10000)
    (common : isLeapYear Y = false) (tm : Tm) (gmt : Bool) (fuel : Nat) :
    _strptime (fuel + 6) env input 0 formatYj tm gmt = .error (.outOfRow false 13) := by
  rw [scan_formatYj env text small (by decide) le_rfl]
  exact finish_yday_past rfl rfl rfl common (by simp only [Loc.init]; omega)

/-- The year 2023 is a common year. -/
theorem strptime_common_day_366_leaves_row_2023 :
    (lit "2023 366" (by decide)).chars = pad 4 2023 ++ ' ' :: pad 3 366 ∧ 2023 < 10000 ∧
      isLeapYear 2023 = false ∧
      _strptime 6 Env.blank (lit "2023 366" (by decide)) 0 formatYj ⟨0, 0, 0, 0, 0, 0, 0, 0, 0⟩ false =
        .error (.outOfRow false 13) :=
  ⟨rfl, by decide, rfl,
    @strptime_common_day_366_leaves_row Env.blank _ 2023 rfl (by decide) rfl ⟨0, 0, 0, 0, 0, 0, 0, 0, 0⟩
      false 0⟩

/-- `"%Y %U %w"` and `"%Y %W %u"` on a year, a week and a weekday digit `w`,
up to the completion of the date: the format `fmt` with the week directive `c`
and the weekday directive `e`, for weeks starting on weekday `first`. -/
theorem scan_formatWeek (env : Env) {fmt input : CStr} {c e : Char} {first : Int}
    (chars : fmt.chars = ['%', 'Y', ' ', '%', c, ' ', '%', e])
    (week : c = 'U' ∧ e = 'w' ∧ first = TM_SUNDAY ∨ c = 'W' ∧ e = 'u' ∧ first = TM_MONDAY)
    {Y U w : Nat} (text : input.chars = pad 4 Y ++ ' ' :: (pad 2 U ++ ' ' :: pad 1 w)) (small : Y < 10000)
    (weeks : U ≤ 53) (digit : (e = 'w' ∧ w ≤ 6) ∨ (e = 'u' ∧ 1 ≤ w ∧ w ≤ 7)) (tm : Tm) (gmt : Bool)
    (fuel : Nat) :
    _strptime (fuel + 9) env input 0 fmt tm gmt = finish
      { buf := 9, tm := { tm with tm_wday := (w : Int).tmod 7 }, gmt, flags := ⟨true, false, false, false, true⟩
        century := ((Y / 100 : Nat) : Int), year := ((Y % 100 : Nat) : Int), day_offset := first
        week_offset := U } := by
  have read : ∀ p, fmt.charAt p = CStr.charAt ⟨_, chars ▸ fmt.no_nul⟩ p := fun p => by
    simp only [CStr.charAt, chars]
  have letters : c ≠ 'E' ∧ c ≠ 'O' ∧ e ≠ 'E' ∧ e ≠ 'O' ∧ nested env.langinfo c = none ∧
      nested env.langinfo e = none := by
    rcases week with ⟨rfl, rfl, -⟩ | ⟨rfl, rfl, -⟩ <;> exact ⟨by decide, by decide, by decide, by decide, rfl, rfl⟩
  have at0 : input.chars.drop 0 = pad 4 Y ++ ' ' :: (pad 2 U ++ ' ' :: pad 1 w) := by
    rw [List.drop_zero, text]
  have at4 := drop_pad_of_drop at0
  have at5 := CStr.drop_succ_of_drop at4
  have at7 : input.chars.drop (0 + 4 + 1 + 2) = ' ' :: (pad 1 w ++ []) := by
    simpa using drop_pad_of_drop at5
  have at8 : input.chars.drop (0 + 4 + 1 + 2 + 1) = pad 1 w ++ [] := CStr.drop_succ_of_drop at7
  have weekStep : ∀ O (l : Loc), input.chars.drop l.buf = pad 2 U ++ ' ' :: pad 1 w →
      convert env input c O l = .ok (.next { l with
        buf := l.buf + 2, day_offset := first, week_offset := U }) := by
    intro O l at_buf
    rcases week with ⟨rfl, -, rfl⟩ | ⟨rfl, -, rfl⟩
    · exact convWeek_pad 'U' weeks at_buf
    · exact convWeek_pad 'W' weeks at_buf
  have dayStep : ∀ O (l : Loc), input.chars.drop l.buf = pad 1 w ++ [] →
      convert env input e O l = .ok (.next { l with
        buf := l.buf + 1
        tm := { l.tm with tm_wday := (w : Int).tmod 7 }
        flags := { l.flags with wday := true } }) := by
    intro O l at_buf
    rcases week with ⟨-, rfl, -⟩ | ⟨-, rfl, -⟩
    · exact convWdayNumber_pad 'w' digit at_buf
    · exact convWdayNumber_pad 'u' digit at_buf
  unfold _strptime
  refine (scan_percent ((read 0).trans rfl)).trans ?_
  refine (scan_convert ((read 1).trans rfl) ⟨by decide, by decide⟩ rfl
    (convYear_pad small at0)).trans ?_
  refine (scan_literal ((read 2).trans rfl) (by decide) (by decide) (literal_space_pad at4)).trans ?_
  refine (scan_percent ((read 3).trans rfl)).trans ?_
  refine (scan_convert ((read 4).trans rfl) ⟨letters.1, letters.2.1⟩ letters.2.2.2.2.1
    (weekStep _ _ at5)).trans ?_
  refine (scan_literal ((read 5).trans rfl) (by decide) (by decide) (literal_space_pad at7)).trans ?_
  refine (scan_percent ((read 6).trans rfl)).trans ?_
  refine (scan_convert ((read 7).trans rfl) ⟨letters.2.2.1, letters.2.2.2.1⟩ letters.2.2.2.2.2
    (dayStep _ _ at8)).trans ?_
  exact scan_end ((read 8).trans rfl)

/-- `"%Y %U %w"` and `"%Y %W %u"` on a year, a week and a weekday digit `w`,
with `yday` the day of the year they give. -/
theorem run_formatWeek (env : Env) {fmt input : CStr} {c e : Char} {first : Int}
    (chars : fmt.chars = ['%', 'Y', ' ', '%', c, ' ', '%', e])
    (week : c = 'U' ∧ e = 'w' ∧ first = TM_SUNDAY ∨ c = 'W' ∧ e = 'u' ∧ first = TM_MONDAY)
    {Y U w m : Nat} {yday : Int}
    (text : input.chars = pad 4 Y ++ ' ' :: (pad 2 U ++ ' ' :: pad 1 w)) (small : Y < 10000)
    (weeks : U ≤ 53) (digit : (e = 'w' ∧ w ≤ 6) ∨ (e = 'u' ∧ 1 ≤ w ∧ w ≤ 7))
    (notWeekZero : ¬((U : Int) = 0 ∧ first_wday_of Y = first))
    (tmp : (7 - first_wday_of Y + first).tmod 7 + ((U : Int) - 1) * 7 +
      ((w : Int).tmod 7 - first + 7).tmod 7 = yday)
    (nonneg : 0 ≤ yday) (mlo : 1 ≤ m) (mhi : m ≤ 12)
    (after : daysBeforeMonth (isLeapYear Y) m ≤ yday)
    (before : yday < daysBeforeMonth (isLeapYear Y) (m + 1)) (tm : Tm) (gmt : Bool) (fuel : Nat) :
    _strptime (fuel + 9) env input 0 fmt tm gmt = .ok ⟨some 9, { tm with
      tm_wday := (w : Int).tmod 7
      tm_year := (Y : Int) - 1900
      tm_yday := yday
      tm_mon := (m : Int) - 1
      tm_mday := yday - daysBeforeMonth (isLeapYear Y) m + 1 }, gmt⟩ := by
  have offset : first ≠ -1 := by rcases week with ⟨-, -, rfl⟩ | ⟨-, -, rfl⟩ <;> decide
  rw [scan_formatWeek env chars week text small weeks digit]
  exact finish_week rfl rfl rfl offset notWeekZero tmp nonneg mlo mhi after before

end Runs

/-! ## Dates -/

namespace Date

/-- `tm` with what `d` sets in it: the year, the month, the day of the month, the
day of the year and the weekday. -/
def toTm (d : Date) (tm : Tm) : Tm :=
  { tm with
    tm_year := (d.year : Int) - 1900
    tm_mon := (d.month : Int) - 1
    tm_mday := d.day
    tm_yday := d.yday
    tm_wday := d.wday }

@[simp] theorem toTm_tm_mon (d : Date) (tm : Tm) : (d.toTm tm).tm_mon = (d.month : Int) - 1 := rfl

@[simp] theorem toTm_tm_mday (d : Date) (tm : Tm) : (d.toTm tm).tm_mday = d.day := rfl

@[simp] theorem toTm_tm_year (d : Date) (tm : Tm) : (d.toTm tm).tm_year = (d.year : Int) - 1900 := rfl

theorem wday_lt (d : Date) : d.wday < 7 := Nat.mod_lt _ (by decide)

theorem yday_natCast (d : Date) :
    ((daysBeforeMonth (isLeapYear d.year) d.month : Nat) : Int) + ((d.day : Int) - 1) = d.yday := by
  have := d.day_pos
  simp only [yday]
  omega

theorem mday_natCast (d : Date) :
    (d.yday : Int) - (daysBeforeMonth (isLeapYear d.year) d.month : Nat) + 1 = d.day := by
  rw [← d.yday_natCast]
  ring

theorem wday_natCast_tmod (d : Date) : (d.wday : Int).tmod 7 = d.wday := by
  show ((d.wday % 7 : Nat) : Int) = d.wday
  rw [Nat.mod_eq_of_lt d.wday_lt]

/-- The digit `%u` writes, read back as `tm_wday`. -/
theorem isoWday_natCast_tmod (d : Date) :
    ((if d.wday = 0 then 7 else d.wday : Nat) : Int).tmod 7 = d.wday := by
  show (((if d.wday = 0 then 7 else d.wday) % 7 : Nat) : Int) = d.wday
  have := d.wday_lt
  split <;> omega

/-- From year 1 on, `first_wday_of` and the day of the year give the weekday. -/
theorem wday_first_wday_of (d : Date) (pos : 1 ≤ d.year) :
    (first_wday_of d.year + (d.yday : Int)).tmod 7 = d.wday := by
  rw [first_wday_of_natCast pos, ← Nat.cast_add]
  rfl

theorem week_le (d : Date) {first : Nat} (below : first < 7) : d.week first ≤ 53 := by
  have := d.yday_le
  rw [d.week_eq first below]
  omega

/-- A date in week 0 lies before the first day of its year that starts a week, so
in a year that begins with such a day no date is in week 0. -/
theorem week_ne_zero (d : Date) (pos : 1 ≤ d.year) {first : Nat} (below : first ≤ 1) :
    ¬((d.week first : Int) = 0 ∧ first_wday_of d.year = first) := by
  have wday : d.wday = (jan1Weekday d.year + d.yday) % 7 := rfl
  rw [first_wday_of_natCast pos, d.week_eq first (by omega)]
  omega

/-- The day of the year `_strptime` computes from the week and the weekday of a
date: the first day of the year that starts a week, the whole weeks after it,
and the days from the start of the date's week. -/
theorem week_tmpyday (d : Date) (pos : 1 ≤ d.year) (first : Nat) (below : first ≤ 1) :
    (7 - first_wday_of d.year + first).tmod 7 + ((d.week first : Int) - 1) * 7 +
      ((d.wday : Int) - first + 7).tmod 7 = d.yday := by
  have wday : d.wday = (jan1Weekday d.year + d.yday) % 7 := rfl
  have := jan1Weekday_lt d.year
  rw [first_wday_of_natCast pos, d.week_eq first (by omega),
    Int.tmod_eq_emod (by omega) (by decide), Int.tmod_eq_emod (by omega) (by decide)]
  omega

end Date

section RoundTrip

variable (env : Env) (d : Date) (pos : 1 ≤ d.year) (small : d.year < 10000) (tm : Tm) (gmt : Bool)
  (fuel : Nat)
include pos small

theorem roundTrip_formatYmd :
    _strptime (fuel + 9) env (d.strftime formatYmd) 0 formatYmd tm gmt = .ok ⟨some 10, d.toTm tm, gmt⟩ := by
  rw [@run_formatYmd env _ d.year d.month d.day rfl small d.month_pos d.month_le d.day_pos
    (d.day_le.trans (monthLength_le _ _)) tm gmt fuel, d.yday_natCast, d.wday_first_wday_of pos]
  rfl

theorem roundTrip_formatYj :
    _strptime (fuel + 6) env (d.strftime formatYj) 0 formatYj tm gmt = .ok ⟨some 8, d.toTm tm, gmt⟩ := by
  have within := d.yday_within
  have yday : ((d.yday + 1 : Nat) : Int) - 1 = d.yday := by omega
  rw [@run_formatYj env _ d.year (d.yday + 1) d.month rfl small (by omega)
    (by have := d.yday_le; omega) d.month_pos d.month_le (by omega) (by omega) tm gmt fuel,
    yday, d.mday_natCast, d.wday_first_wday_of pos]
  rfl

theorem roundTrip_formatYUw :
    _strptime (fuel + 9) env (d.strftime formatYUw) 0 formatYUw tm gmt = .ok ⟨some 9, d.toTm tm, gmt⟩ := by
  have within := d.yday_within
  rw [@run_formatWeek env formatYUw _ 'U' 'w' TM_SUNDAY rfl (.inl ⟨rfl, rfl, rfl⟩) d.year (d.week 0)
    d.wday d.month d.yday rfl small (d.week_le (by decide)) (.inl ⟨rfl, by have := d.wday_lt; omega⟩)
    (d.week_ne_zero pos (by decide)) (by rw [d.wday_natCast_tmod]; exact d.week_tmpyday pos 0 (by decide))
    (Int.ofNat_zero_le _) d.month_pos d.month_le (by exact_mod_cast within.1)
    (by exact_mod_cast within.2) tm gmt fuel, d.wday_natCast_tmod, d.mday_natCast]
  rfl

theorem roundTrip_formatYWu :
    _strptime (fuel + 9) env (d.strftime formatYWu) 0 formatYWu tm gmt = .ok ⟨some 9, d.toTm tm, gmt⟩ := by
  have within := d.yday_within
  rw [@run_formatWeek env formatYWu _ 'W' 'u' TM_MONDAY rfl (.inr ⟨rfl, rfl, rfl⟩) d.year (d.week 1)
    (if d.wday = 0 then 7 else d.wday) d.month d.yday rfl small (d.week_le (by decide))
    (.inr ⟨rfl, by have := d.wday_lt; split <;> omega⟩)
    (d.week_ne_zero pos le_rfl) (by rw [d.isoWday_natCast_tmod]; exact d.week_tmpyday pos 1 le_rfl)
    (Int.ofNat_zero_le _) d.month_pos d.month_le (by exact_mod_cast within.1)
    (by exact_mod_cast within.2) tm gmt fuel, d.isoWday_natCast_tmod, d.mday_natCast]
  rfl

/-- The formats whose renderings `_strptime` reads back, one for each way it
derives the date. -/
def roundTripFormats : List CStr := [formatYmd, formatYj, formatYUw, formatYWu]

/-- For every date of the years 1 to 9999 and each of the four formats,
`_strptime` reads the date's rendering to its end and sets the year, the month,
the day of the month, the day of the year and the weekday of the date, leaving
the rest of `tm` as it was. -/
theorem strptime_reads_back_strftime {fmt : CStr} (known : fmt ∈ roundTripFormats) :
    _strptime (fuel + 9) env (d.strftime fmt) 0 fmt tm gmt =
      .ok ⟨some (d.strftime fmt).chars.length, d.toTm tm, gmt⟩ := by
  simp only [roundTripFormats, List.mem_cons, List.mem_nil_iff, or_false] at known
  rcases known with rfl | rfl | rfl | rfl
  · exact roundTrip_formatYmd env d pos small tm gmt fuel
  · exact roundTrip_formatYj env d pos small tm gmt (fuel + 3)
  · exact roundTrip_formatYUw env d pos small tm gmt fuel
  · exact roundTrip_formatYWu env d pos small tm gmt fuel

end RoundTrip

/-- 29 February 2024, a Thursday. -/
def leapDay : Date := ⟨2024, 2, 29, by decide, by decide, by decide, by decide⟩

theorem strptime_reads_back_leap_day :
    1 ≤ leapDay.year ∧ leapDay.year < 10000 ∧ formatYUw ∈ roundTripFormats ∧
      _strptime 9 Env.blank (leapDay.strftime formatYUw) 0 formatYUw ⟨0, 0, 0, 0, 0, 0, 0, 0, 0⟩ false =
        .ok ⟨some 9, leapDay.toTm ⟨0, 0, 0, 0, 0, 0, 0, 0, 0⟩, false⟩ :=
  ⟨by decide, by decide, .tail _ (.tail _ (.head _)),
    strptime_reads_back_strftime Env.blank leapDay (by decide) (by decide) ⟨0, 0, 0, 0, 0, 0, 0, 0, 0⟩
      false 0 (.tail _ (.tail _ (.head _)))⟩

/-- `strptime_bsd`, the entry point, returns the same: these formats give no time
zone, so `tm` is not moved to local time. -/
theorem strptime_bsd_reads_back_strftime (env : Env) (d : Date) (pos : 1 ≤ d.year)
    (small : d.year < 10000) (tm : Tm) (fuel : Nat) {fmt : CStr} (known : fmt ∈ roundTripFormats) :
    strptime_bsd (fuel + 9) env (d.strftime fmt) fmt tm =
      .ok (some (d.strftime fmt).chars.length, d.toTm tm) := by
  simp only [roundTripFormats, List.mem_cons, List.mem_nil_iff, or_false] at known
  unfold strptime_bsd
  rcases known with rfl | rfl | rfl | rfl
  · rw [roundTrip_formatYmd env d pos small tm false fuel]; rfl
  · rw [show fuel + 9 = fuel + 3 + 6 from rfl, roundTrip_formatYj env d pos small tm false (fuel + 3)]; rfl
  · rw [roundTrip_formatYUw env d pos small tm false fuel]; rfl
  · rw [roundTrip_formatYWu env d pos small tm false fuel]; rfl

theorem strptime_bsd_reads_back_leap_day :
    1 ≤ leapDay.year ∧ leapDay.year < 10000 ∧ formatYWu ∈ roundTripFormats ∧
      strptime_bsd 9 Env.blank (leapDay.strftime formatYWu) formatYWu ⟨0, 0, 0, 0, 0, 0, 0, 0, 0⟩ =
        .ok (some 9, leapDay.toTm ⟨0, 0, 0, 0, 0, 0, 0, 0, 0⟩) :=
  ⟨by decide, by decide, .tail _ (.tail _ (.tail _ (.head _))),
    strptime_bsd_reads_back_strftime Env.blank leapDay (by decide) (by decide) ⟨0, 0, 0, 0, 0, 0, 0, 0, 0⟩ 0
      (.tail _ (.tail _ (.tail _ (.head _))))⟩

/-! ## Year 0 -/

/-- In year 0 `first_wday_of` puts 1 January on a Sunday, where the calendar has a
Saturday: `"%Y-%m-%d"` on a date of that year sets every field of the date but
the weekday, which comes out one day late. -/
theorem strptime_year_zero_weekday_late (env : Env) (d : Date) (zero : d.year = 0) (tm : Tm)
    (gmt : Bool) (fuel : Nat) :
    _strptime (fuel + 9) env (d.strftime formatYmd) 0 formatYmd tm gmt =
      .ok ⟨some 10, { d.toTm tm with tm_wday := ((d.wday + 1) % 7 : Nat) }, gmt⟩ := by
  have wday : d.wday = (6 + d.yday) % 7 := by rw [Date.wday, zero]; rfl
  have late : (first_wday_of d.year + (d.yday : Int)).tmod 7 = ((d.wday + 1) % 7 : Nat) := by
    rw [zero, Nat.cast_zero, first_wday_of_zero.1, zero_add, wday]
    show ((d.yday % 7 : Nat) : Int) = _
    omega
  rw [@run_formatYmd env _ d.year d.month d.day rfl (by omega) d.month_pos d.month_le d.day_pos
    (d.day_le.trans (monthLength_le _ _)) tm gmt fuel, d.yday_natCast, late]
  rfl

/-- 1 January of year 0, a Saturday. -/
def newYearZero : Date := ⟨0, 1, 1, by decide, by decide, by decide, by decide⟩

theorem strptime_year_zero_new_year_sunday :
    newYearZero.year = 0 ∧ newYearZero.wday = 6 ∧
      _strptime 9 Env.blank (newYearZero.strftime formatYmd) 0 formatYmd ⟨0, 0, 0, 0, 0, 0, 0, 0, 0⟩
        false = .ok ⟨some 10, ⟨0, 0, 0, 1, 0, -1900, 0, 0, 0⟩, false⟩ :=
  ⟨rfl, rfl, strptime_year_zero_weekday_late Env.blank newYearZero rfl ⟨0, 0, 0, 0, 0, 0, 0, 0, 0⟩
    false 0⟩



end Strptime
end Userland
