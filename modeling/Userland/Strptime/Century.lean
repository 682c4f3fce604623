import Userland.Strptime.RoundTrip

/-!
# Two-digit years

`%y` reads two digits and, with no `%C`, takes them for a year of 1969 to 2068:
`00` to `68` are 2000 to 2068, `69` to `99` are 1969 to 1999; after `%C` they
are the year in that century.  `%D` parses
`"%m/%d/%y"` with a call of `_strptime` of its own, which completes the date;
the caller then completes it once more from the month and the day.  Both give
the same date: `%D` reads back what `strftime` writes for every date of those
years.
-/

namespace Userland
namespace Strptime

/-- `"%y"`. -/
def formaty : CStr := lit "%y" (by decide)

/-- `"%D"`. -/
def formatD : CStr := lit "%D" (by decide)

/-- `"%C%y"`. -/
def formatCy : CStr := lit "%C%y" (by decide)

/-- `"%m/%d/%y"`, the format of `%D`. -/
def formatmdy : CStr := lit "%m/%d/%y" (by decide)

/-- `"%y"` on two digits `v`: the year `2000 + v` below 69, `1900 + v` from 69 on;
nothing else of `tm` changes. -/
theorem strptime_two_digit_year (env : Env) {input : CStr} {v : Nat} (text : input.chars = pad 2 v)
    (small : v < 100) (tm : Tm) (gmt : Bool) (fuel : Nat) :
    _strptime (fuel + 3) env input 0 formaty tm gmt =
      .ok ⟨some 2, { tm with tm_year := if (v : Int) < 69 then (v : Int) + 100 else v }, gmt⟩ := by
  have at0 : input.chars.drop 0 = pad 2 v ++ [] := by rw [List.drop_zero, text, List.append_nil]
  unfold _strptime
  refine (scan_percent (show formaty.charAt 0 = .ok '%' from rfl)).trans ?_
  refine (scan_convert (show formaty.charAt 1 = .ok 'y' from rfl) ⟨by decide, by decide⟩ rfl
    (convYear_pad_two small at0)).trans ?_
  refine (scan_end (show formaty.charAt 2 = .ok '\x00' from rfl)).trans ?_
  exact finish_yearOnly (setYear_pivot small tm) rfl rfl

theorem strptime_two_digit_year_68 :
    (lit "68" (by decide)).chars = pad 2 68 ∧ 68 < 100 ∧
      _strptime 3 Env.blank (lit "68" (by decide)) 0 formaty ⟨0, 0, 0, 0, 0, 0, 0, 0, 0⟩ false =
        .ok ⟨some 2, ⟨0, 0, 0, 0, 0, 168, 0, 0, 0⟩, false⟩ :=
  ⟨by decide, by decide, @strptime_two_digit_year Env.blank _ 68 (by decide) (by decide) _ false 0⟩

/-- With `%C` before it, `%y` is the year in that century: `"%C%y"` reads back
every four-digit year. -/
theorem strptime_reads_century_and_year (env : Env) {input : CStr} {Y : Nat}
    (text : input.chars = pad 2 (Y / 100) ++ pad 2 (Y % 100)) (small : Y < 10000) (tm : Tm) (gmt : Bool)
    (fuel : Nat) :
    _strptime (fuel + 5) env input 0 formatCy tm gmt =
      .ok ⟨some 4, { tm with tm_year := (Y : Int) - 1900 }, gmt⟩ := by
  have at0 : input.chars.drop 0 = pad 2 (Y / 100) ++ pad 2 (Y % 100) := by rw [List.drop_zero, text]
  have at2 : input.chars.drop (0 + 2) = pad 2 (Y % 100) ++ [] := by
    rw [drop_pad_of_drop at0, List.append_nil]
  unfold _strptime
  refine (scan_percent (show formatCy.charAt 0 = .ok '%' from rfl)).trans ?_
  refine (scan_convert (show formatCy.charAt 1 = .ok 'C' from rfl) ⟨by decide, by decide⟩ rfl
    (convCentury_pad (by omega) at0)).trans ?_
  refine (scan_percent (show formatCy.charAt 2 = .ok '%' from rfl)).trans ?_
  refine (scan_convert (show formatCy.charAt 3 = .ok 'y' from rfl) ⟨by decide, by decide⟩ rfl
    (convYear_pad_two (Nat.mod_lt _ (by decide)) at2)).trans ?_
  refine (scan_end (show formatCy.charAt 4 = .ok '\x00' from rfl)).trans ?_
  exact finish_yearOnly (setYear_full Y tm) rfl rfl

theorem strptime_reads_century_and_year_1066 :
    (lit "1066" (by decide)).chars = pad 2 (1066 / 100) ++ pad 2 (1066 % 100) ∧ 1066 < 10000 ∧
      _strptime 5 Env.blank (lit "1066" (by decide)) 0 formatCy ⟨0, 0, 0, 0, 0, 0, 0, 0, 0⟩ false =
        .ok ⟨some 4, ⟨0, 0, 0, 0, 0, -834, 0, 0, 0⟩, false⟩ :=
  ⟨by decide, by decide,
    @strptime_reads_century_and_year Env.blank _ 1066 (by decide) (by decide) _ false 0⟩

/-- `"%m/%d/%y"` on a month, a day and two digits `v` that stand for the year `Y`. -/
theorem run_formatmdy (env : Env) {input : CStr} {m d v Y : Nat}
    (text : input.chars = pad 2 m ++ '/' :: (pad 2 d ++ '/' :: pad 2 v)) (mlo : 1 ≤ m) (mhi : m ≤ 12)
    (dlo : 1 ≤ d) (dhi : d ≤ 31) (small : v < 100)
    (pivot : (if (v : Int) < 69 then (v : Int) + 100 else v) = (Y : Int) - 1900) (tm : Tm) (gmt : Bool)
    (fuel : Nat) :
    _strptime (fuel + 9) env input 0 formatmdy tm gmt = .ok ⟨some 8, { tm with
      tm_mon := (m : Int) - 1
      tm_mday := d
      tm_year := (Y : Int) - 1900
      tm_yday := (daysBeforeMonth (isLeapYear Y) m : Int) + ((d : Int) - 1)
      tm_wday := (first_wday_of Y +
        ((daysBeforeMonth (isLeapYear Y) m : Int) + ((d : Int) - 1))).tmod 7 }, gmt⟩ := by
  have at0 : input.chars.drop 0 = pad 2 m ++ '/' :: (pad 2 d ++ '/' :: pad 2 v) := by
    rw [List.drop_zero, text]
  have at2 := drop_pad_of_drop at0
  have at3 := CStr.drop_succ_of_drop at2
  have at5 := drop_pad_of_drop at3
  have at6 : input.chars.drop (0 + 2 + 1 + 2 + 1) = pad 2 v ++ [] := by
    rw [CStr.drop_succ_of_drop at5, List.append_nil]
  unfold _strptime
  refine (scan_percent (show formatmdy.charAt 0 = .ok '%' from rfl)).trans ?_
  refine (scan_convert (show formatmdy.charAt 1 = .ok 'm' from rfl) ⟨by decide, by decide⟩ rfl
    (convMonth_pad mlo mhi at0)).trans ?_
  refine (scan_literal (show formatmdy.charAt 2 = .ok '/' from rfl) (by decide) (by decide)
    (literal_plain rfl at2)).trans ?_
  refine (scan_percent (show formatmdy.charAt 3 = .ok '%' from rfl)).trans ?_
  refine (scan_convert (show formatmdy.charAt 4 = .ok 'd' from rfl) ⟨by decide, by decide⟩ rfl
    (convMday_pad dlo dhi at3)).trans ?_
  refine (scan_literal (show formatmdy.charAt 5 = .ok '/' from rfl) (by decide) (by decide)
    (literal_plain rfl at5)).trans ?_
  refine (scan_percent (show formatmdy.charAt 6 = .ok '%' from rfl)).trans ?_
  refine (scan_convert (show formatmdy.charAt 7 = .ok 'y' from rfl) ⟨by decide, by decide⟩ rfl
    (convYear_pad_two small at6)).trans ?_
  refine (scan_end (show formatmdy.charAt 8 = .ok '\x00' from rfl)).trans ?_
  exact finish_monthDay ((setYear_pivot small _).trans (by rw [pivot])) rfl rfl mlo mhi

section Dates

variable (env : Env) (d : Date) (from1969 : 1969 ≤ d.year) (to2068 : d.year ≤ 2068) (tm : Tm)
  (gmt : Bool) (fuel : Nat)
include from1969 to2068

theorem pivot_year : (if ((d.year % 100 : Nat) : Int) < 69 then ((d.year % 100 : Nat) : Int) + 100
    else ((d.year % 100 : Nat) : Int)) = (d.year : Int) - 1900 := by
  split <;> omega

theorem roundTrip_formatmdy :
    _strptime (fuel + 9) env (d.strftime formatD) 0 formatmdy tm gmt = .ok ⟨some 8, d.toTm tm, gmt⟩ := by
  rw [@run_formatmdy env _ d.month d.day (d.year % 100) d.year rfl d.month_pos d.month_le d.day_pos
    (d.day_le.trans (monthLength_le _ _)) (Nat.mod_lt _ (by decide)) (pivot_year d from1969 to2068)
    tm gmt fuel, d.yday_natCast, d.wday_first_wday_of (by omega)]
  rfl

/-- For every date of the years 1969 to 2068, `"%D"` reads back what `strftime`
writes for it: the call for `"%m/%d/%y"` sets the date, and the caller, which
completes it again from the month and the day, leaves it as it is. -/
theorem strptime_reads_back_D :
    _strptime (fuel + 11) env (d.strftime formatD) 0 formatD tm gmt = .ok ⟨some 8, d.toTm tm, gmt⟩ := by
  unfold _strptime
  refine (scan_percent (show formatD.charAt 0 = .ok '%' from rfl)).trans ?_
  refine (scan_nested (l := Loc.init 0 tm gmt) (show formatD.charAt 1 = .ok 'D' from rfl)
    ⟨by decide, by decide⟩ rfl (roundTrip_formatmdy env d from1969 to2068 tm gmt fuel)).trans ?_
  refine (scan_end (show formatD.charAt 2 = .ok '\x00' from rfl)).trans ?_
  refine (finish_monthDay (Y := d.year) rfl rfl rfl d.month_pos d.month_le).trans ?_
  simp only [Date.toTm_tm_mday, d.yday_natCast, d.wday_first_wday_of (by omega)]
  rfl

end Dates

/-- 31 December 1999. -/
def lastDay1999 : Date := ⟨1999, 12, 31, by decide, by decide, by decide, by decide⟩

theorem strptime_reads_back_D_1999 :
    1969 ≤ lastDay1999.year ∧ lastDay1999.year ≤ 2068 ∧
      (lastDay1999.strftime formatD).chars = "12/31/99".toList ∧
      _strptime 11 Env.blank (lastDay1999.strftime formatD) 0 formatD ⟨0, 0, 0, 0, 0, 0, 0, 0, 0⟩ false =
        .ok ⟨some 8, lastDay1999.toTm ⟨0, 0, 0, 0, 0, 0, 0, 0, 0⟩, false⟩ :=
  ⟨by decide, by decide, by decide,
    strptime_reads_back_D Env.blank lastDay1999 (by decide) (by decide) ⟨0, 0, 0, 0, 0, 0, 0, 0, 0⟩ false 0⟩

end Strptime
end Userland
