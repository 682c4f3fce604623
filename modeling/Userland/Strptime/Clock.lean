import Userland.Strptime.Run

/-!
# Times of day

`%z` reads an offset from UTC and moves the hour and the minute back by it.
`%Z` reads a run of capital letters: `GMT` and `UTC` mark the time as UTC, the
local zone's two names set `tm_isdst`, and any other name gives `NULL`.
`%T` parses `"%H:%M:%S"` with a call of `_strptime` of its own and sets the hour,
the minute and the second.  `%I` reads an hour of a 12-hour clock and `%p` the
locale's string for before or after noon, which moves it: 12 before noon is
hour 0, and after noon the hours other than 12 move by 12.  For every time of
day, `_strptime` reads back what `strftime` writes with these directives,
provided the locale's string for before noon does not start the one for after
noon.
-/

namespace Userland
namespace Strptime

/-- `"%T"`. -/
def formatT : CStr := lit "%T" (by decide)

/-- `"%H:%M:%S"`, the format of `%T`. -/
def formatHMS : CStr := lit "%H:%M:%S" (by decide)

/-- `"%I%p"`. -/
def formatIp : CStr := lit "%I%p" (by decide)

/-- `"%z"`. -/
def formatz : CStr := lit "%z" (by decide)

/-- `"%Z"`. -/
def formatZ : CStr := lit "%Z" (by decide)

/-- What `strftime` writes for `"%I%p"` at hour `h` of the day: the hour of the
12-hour clock, `12` for hours `0` and `12`, and the locale's string for before or
after noon. -/
def twelveHour (lang : Langinfo) (h : Nat) : List Char :=
  pad 2 (if h % 12 = 0 then 12 else h % 12) ++ (if h < 12 then lang.am_str else lang.pm_str).chars

/-- `"%H:%M:%S"` on an hour, a minute and a second. -/
theorem run_formatHMS (env : Env) {input : CStr} {h m s : Nat}
    (text : input.chars = pad 2 h ++ ':' :: (pad 2 m ++ ':' :: pad 2 s)) (hour : h ≤ 23) (minute : m ≤ 59)
    (second : s ≤ 60) (tm : Tm) (gmt : Bool) (fuel : Nat) :
    _strptime (fuel + 9) env input 0 formatHMS tm gmt =
      .ok ⟨some 8, { tm with tm_hour := h, tm_min := m, tm_sec := s }, gmt⟩ := by
  have at0 : input.chars.drop 0 = pad 2 h ++ ':' :: (pad 2 m ++ ':' :: pad 2 s) := by
    rw [List.drop_zero, text]
  have at2 := drop_pad_of_drop at0
  have at3 := CStr.drop_succ_of_drop at2
  have at5 := drop_pad_of_drop at3
  have at6 : input.chars.drop (0 + 2 + 1 + 2 + 1) = pad 2 s ++ [] := by
    rw [CStr.drop_succ_of_drop at5, List.append_nil]
  unfold _strptime
  refine (scan_percent (show formatHMS.charAt 0 = .ok '%' from rfl)).trans ?_
  refine (scan_convert (show formatHMS.charAt 1 = .ok 'H' from rfl) ⟨by decide, by decide⟩ rfl
    (convHour_pad 'H' (.inl ⟨rfl, hour⟩) at0)).trans ?_
  refine (scan_literal (show formatHMS.charAt 2 = .ok ':' from rfl) (by decide) (by decide)
    (literal_plain rfl at2)).trans ?_
  refine (scan_percent (show formatHMS.charAt 3 = .ok '%' from rfl)).trans ?_
  refine (scan_convert (show formatHMS.charAt 4 = .ok 'M' from rfl) ⟨by decide, by decide⟩ rfl
    (convMinSec_pad_min minute at3)).trans ?_
  refine (scan_literal (show formatHMS.charAt 5 = .ok ':' from rfl) (by decide) (by decide)
    (literal_plain rfl at5)).trans ?_
  refine (scan_percent (show formatHMS.charAt 6 = .ok '%' from rfl)).trans ?_
  refine (scan_convert (show formatHMS.charAt 7 = .ok 'S' from rfl) ⟨by decide, by decide⟩ rfl
    (convMinSec_pad_sec second at6)).trans ?_
  refine (scan_end (show formatHMS.charAt 8 = .ok '\x00' from rfl)).trans ?_
  exact finish_of_none rfl rfl rfl

/-- `%T` reads an hour, a minute and a second with `"%H:%M:%S"` and changes
nothing else of `tm`. -/
theorem strptime_reads_back_T (env : Env) {input : CStr} {h m s : Nat}
    (text : input.chars = pad 2 h ++ ':' :: (pad 2 m ++ ':' :: pad 2 s)) (hour : h ≤ 23) (minute : m ≤ 59)
    (second : s ≤ 60) (tm : Tm) (gmt : Bool) (fuel : Nat) :
    _strptime (fuel + 11) env input 0 formatT tm gmt =
      .ok ⟨some 8, { tm with tm_hour := h, tm_min := m, tm_sec := s }, gmt⟩ := by
  unfold _strptime
  refine (scan_percent (show formatT.charAt 0 = .ok '%' from rfl)).trans ?_
  refine (scan_nested (l := Loc.init 0 tm gmt) (show formatT.charAt 1 = .ok 'T' from rfl)
    ⟨by decide, by decide⟩ rfl (run_formatHMS env text hour minute second tm gmt fuel)).trans ?_
  refine (scan_end (show formatT.charAt 2 = .ok '\x00' from rfl)).trans ?_
  exact finish_of_none rfl rfl rfl

theorem strptime_reads_back_T_last_second :
    (lit "23:59:60" (by decide)).chars = pad 2 23 ++ ':' :: (pad 2 59 ++ ':' :: pad 2 60) ∧
      23 ≤ 23 ∧ 59 ≤ 59 ∧ 60 ≤ 60 ∧
      _strptime 11 Env.blank (lit "23:59:60" (by decide)) 0 formatT ⟨0, 0, 0, 0, 0, 0, 0, 0, 0⟩ false =
        .ok ⟨some 8, ⟨60, 59, 23, 0, 0, 0, 0, 0, 0⟩, false⟩ :=
  ⟨by decide, le_rfl, le_rfl, le_rfl,
    @strptime_reads_back_T Env.blank _ 23 59 60 (by decide) le_rfl le_rfl le_rfl _ false 0⟩

/-- `"%z"` on a sign and four digits `hhmm`: the offset is accepted exactly when
its minutes are below 60 and it is at most 14 hours east or 12 hours west of UTC.
Then the hour and the minute are moved back by the offset and the time is
marked as UTC; otherwise the result is `NULL` and `tm` is as it was.  The hour
and the minute of `tm` leave room for an accepted offset within `int`, so the
subtractions of the C code cannot overflow. -/
theorem strptime_reads_utc_offset (env : Env) {input : CStr} {west : Bool} {o : Nat} (small : o < 10000)
    (text : input.chars = (if west then '-' else '+') :: pad 4 o) (tm : Tm)
    (room : INT_MIN + 14 ≤ tm.tm_hour ∧ tm.tm_hour ≤ INT_MAX - 14 ∧
      INT_MIN + 59 ≤ tm.tm_min ∧ tm.tm_min ≤ INT_MAX - 59) (gmt : Bool) (fuel : Nat) :
    _strptime (fuel + 3) env input 0 formatz tm gmt =
      .ok (if o > 1400 ∨ (west ∧ o > 1200) ∨ o % 100 ≥ 60 then ⟨none, tm, gmt⟩
        else ⟨some 5, { tm with
          tm_hour := tm.tm_hour - (if west then -1 else 1) * ((o / 100 : Nat) : Int)
          tm_min := tm.tm_min - (if west then -1 else 1) * ((o % 100 : Nat) : Int) }, true⟩) ∧
    (¬(o > 1400 ∨ (west ∧ o > 1200) ∨ o % 100 ≥ 60) →
      INT_MIN ≤ tm.tm_hour - (if west then -1 else 1) * ((o / 100 : Nat) : Int) ∧
      tm.tm_hour - (if west then -1 else 1) * ((o / 100 : Nat) : Int) ≤ INT_MAX ∧
      INT_MIN ≤ tm.tm_min - (if west then -1 else 1) * ((o % 100 : Nat) : Int) ∧
      tm.tm_min - (if west then -1 else 1) * ((o % 100 : Nat) : Int) ≤ INT_MAX) := by
  refine ⟨?_, fun accepted => ?_⟩
  swap
  · have hours : o / 100 ≤ 14 := by omega
    have minutes : o % 100 < 60 := by omega
    cases west <;> simp only [Bool.false_eq_true, if_false, if_true] <;> omega
  have offset := convOffset_pad (l := Loc.init 0 tm gmt) small
    (by rw [Loc.init_buf, List.drop_zero, text, List.append_nil])
  unfold _strptime
  refine (scan_percent (show formatz.charAt 0 = .ok '%' from rfl)).trans ?_
  by_cases bad : o > 1400 ∨ (west ∧ o > 1200) ∨ o % 100 ≥ 60
  · rw [if_pos bad] at offset ⊢
    exact scan_convert_null (show formatz.charAt 1 = .ok 'z' from rfl) ⟨by decide, by decide⟩ rfl offset
  · rw [if_neg bad] at offset ⊢
    refine (scan_convert (show formatz.charAt 1 = .ok 'z' from rfl) ⟨by decide, by decide⟩ rfl
      offset).trans ?_
    refine (scan_end (show formatz.charAt 2 = .ok '\x00' from rfl)).trans ?_
    exact finish_of_none rfl rfl rfl

theorem strptime_reads_utc_offset_india :
    530 < 10000 ∧ (lit "+0530" (by decide)).chars = (if false then '-' else '+') :: pad 4 530 ∧
      (INT_MIN + 14 ≤ (0 : Int) ∧ (0 : Int) ≤ INT_MAX - 14 ∧ INT_MIN + 59 ≤ (0 : Int) ∧ (0 : Int) ≤ INT_MAX - 59) ∧
      _strptime 3 Env.blank (lit "+0530" (by decide)) 0 formatz ⟨0, 0, 0, 0, 0, 0, 0, 0, 0⟩ false =
        .ok ⟨some 5, ⟨0, -30, -5, 0, 0, 0, 0, 0, 0⟩, true⟩ :=
  have room : INT_MIN + 14 ≤ (0 : Int) ∧ (0 : Int) ≤ INT_MAX - 14 ∧ INT_MIN + 59 ≤ (0 : Int) ∧
      (0 : Int) ≤ INT_MAX - 59 := by
    simp only [INT_MIN, INT_MAX]
    omega
  ⟨by decide, by decide, room,
    (@strptime_reads_utc_offset Env.blank _ false 530 (by decide) (by decide) _ room false 0).1⟩

/-- `%Z` at a run `z` of capital letters: `GMT` and `UTC` mark the time as UTC,
the two names of the local time zone set `tm_isdst`, any other name gives
`NULL`, and no capital letter at all reads nothing. -/
theorem convZone_name (env : Env) {input : CStr} {l : Loc} {z rest : List Char}
    (upper : ∀ c ∈ z, isupper c) (stop : ∀ c ∈ rest.head?, isupper c = false)
    (within : l.buf ≤ input.chars.length) (at_buf : input.chars.drop l.buf = z ++ rest) :
    convZone env input l = .ok (if z = [] then .next l
      else if z = "GMT".toList ∨ z = "UTC".toList then .next { l with buf := l.buf + z.length, gmt := true }
      else if z = (env.tzname 0).chars then
        .next { l with buf := l.buf + z.length, tm := { l.tm with tm_isdst := 0 } }
      else if z = (env.tzname 1).chars then
        .next { l with buf := l.buf + z.length, tm := { l.tm with tm_isdst := 1 } }
      else l.null) := by
  have letters : ∀ c ∈ z, (c ≠ '\x00' && isupper c) = true := fun c mem => by
    have capital := upper c mem
    simp only [Bool.and_eq_true, decide_eq_true_eq, capital, and_true]
    rintro rfl
    cases capital
  have name : (z ++ rest).takeWhile (fun b => b ≠ '\x00' && isupper b) = z := by
    rw [List.takeWhile_append_of_pos letters]
    cases rest with
    | nil => simp
    | cons c _ => simp [stop c rfl]
  rw [convZone, CStr.span_eq input (p := fun b => b ≠ '\x00' && isupper b) (by decide) within]
  simp only [ok_bind, at_buf, name,
    Nat.add_sub_cancel_left, List.length_eq_zero, List.take_left]
  by_cases empty : z = []
  · simp [empty, pure_eq_ok]
  · simp only [empty, if_false]
    split_ifs <;> rfl

/-- `"%Z"` on a run `z` of capital letters and what follows it: the name is read
and the time marked as UTC for `GMT` and `UTC`, as standard or summer time for
the local zone's two names; any other name gives `NULL`. -/
theorem strptime_reads_zone_name (env : Env) {input : CStr} {z rest : List Char}
    (upper : ∀ c ∈ z, isupper c) (stop : ∀ c ∈ rest.head?, isupper c = false)
    (text : input.chars = z ++ rest) (tm : Tm) (gmt : Bool) (fuel : Nat) :
    _strptime (fuel + 3) env input 0 formatZ tm gmt =
      .ok (if z = [] then ⟨some 0, tm, gmt⟩
        else if z = "GMT".toList ∨ z = "UTC".toList then ⟨some z.length, tm, true⟩
        else if z = (env.tzname 0).chars then ⟨some z.length, { tm with tm_isdst := 0 }, gmt⟩
        else if z = (env.tzname 1).chars then ⟨some z.length, { tm with tm_isdst := 1 }, gmt⟩
        else ⟨none, tm, gmt⟩) := by
  have zone := convZone_name env (l := Loc.init 0 tm gmt) upper stop (Nat.zero_le _) text
  have read : formatZ.charAt 1 = .ok 'Z' := rfl
  have next {l' : Loc} (step : convZone env input (Loc.init 0 tm gmt) = .ok (.next l'))
      (century : l'.century = -1) (year : l'.year = -1) (noYear : l'.flags.year = false) :
      scan (fuel + 2) env input formatZ 1 (.label false false) (Loc.init 0 tm gmt) =
        .ok ⟨some l'.buf, l'.tm, l'.gmt⟩ :=
    (scan_convert read ⟨by decide, by decide⟩ rfl step).trans
      ((scan_end (show formatZ.charAt 2 = .ok '\x00' from rfl)).trans (finish_of_none century year noYear))
  unfold _strptime
  refine (scan_percent (show formatZ.charAt 0 = .ok '%' from rfl)).trans ?_
  split_ifs at zone ⊢
  · exact next zone rfl rfl rfl
  · simpa only [Loc.init_buf, Nat.zero_add] using next zone rfl rfl rfl
  · simpa only [Loc.init_buf, Nat.zero_add] using next zone rfl rfl rfl
  · simpa only [Loc.init_buf, Nat.zero_add] using next zone rfl rfl rfl
  · exact scan_convert_null read ⟨by decide, by decide⟩ rfl zone

/-- A local time zone named `EST` and, in summer, `EDT`. -/
def Env.eastern : Env :=
  { Env.blank with tzname := fun i => if i = 0 then lit "EST" (by decide) else lit "EDT" (by decide) }

example : _strptime 3 Env.eastern (lit "CET" (by decide)) 0 formatZ ⟨0, 0, 0, 0, 0, 0, 0, 0, 0⟩ false =
    .ok ⟨none, ⟨0, 0, 0, 0, 0, 0, 0, 0, 0⟩, false⟩ := rfl

/-- `"%Z"` on `"EDT"`, the local zone's summer name. -/
theorem strptime_reads_zone_name_summer :
    (∀ c ∈ "EDT".toList, isupper c) ∧ (∀ c ∈ ([] : List Char).head?, isupper c = false) ∧
      (lit "EDT" (by decide)).chars = "EDT".toList ++ [] ∧
      _strptime 3 Env.eastern (lit "EDT" (by decide)) 0 formatZ ⟨0, 0, 0, 0, 0, 0, 0, 0, 0⟩ false =
        .ok ⟨some 3, ⟨0, 0, 0, 0, 0, 0, 0, 0, 1⟩, false⟩ :=
  ⟨by decide, by decide, rfl,
    (@strptime_reads_zone_name Env.eastern _ "EDT".toList [] (by decide) (by decide) rfl _ _ 0).trans
      (by simp [Env.eastern, lit])⟩

/-- `%p` after `%I` read the hour of the 12-hour clock for `h`: the hour is `h`
again. -/
theorem convAmPm_clock {lang : Langinfo} {s : CStr} {l : Loc} {h : Nat} (hour : h < 24)
    (distinct : ¬lang.am_str.chars.map tolower <+: lang.pm_str.chars.map tolower)
    (clock : l.tm.tm_hour = ((if h % 12 = 0 then 12 else h % 12 : Nat) : Int))
    (within : l.buf ≤ s.chars.length)
    (at_buf : s.chars.drop l.buf = (if h < 12 then lang.am_str else lang.pm_str).chars) :
    convAmPm lang s l = .ok (.next { l with
      buf := l.buf + (if h < 12 then lang.am_str else lang.pm_str).chars.length
      tm := { l.tm with tm_hour := h } }) := by
  have early : l.tm.tm_hour ≤ 12 := by rw [clock]; split <;> omega
  by_cases morning : h < 12
  · have back : (if ((if h % 12 = 0 then 12 else h % 12 : Nat) : Int) = 12 then 0
        else ((if h % 12 = 0 then 12 else h % 12 : Nat) : Int)) = h := by
      split <;> split <;> omega
    rw [if_pos morning] at at_buf ⊢
    rw [convAmPm_am lang early (at_buf.trans (List.append_nil _).symm), clock, back]
  · have back : (if ((if h % 12 = 0 then 12 else h % 12 : Nat) : Int) ≠ 12
        then ((if h % 12 = 0 then 12 else h % 12 : Nat) : Int) + 12
        else ((if h % 12 = 0 then 12 else h % 12 : Nat) : Int)) = h := by
      split <;> split <;> omega
    rw [if_neg morning] at at_buf ⊢
    rw [convAmPm_pm lang early within at_buf distinct, clock, back]

section TwelveHour

variable (env : Env) {h : Nat} (hour : h < 24)
  (distinct : ¬env.langinfo.am_str.chars.map tolower <+: env.langinfo.pm_str.chars.map tolower)
  {input : CStr} (text : input.chars = twelveHour env.langinfo h) (tm : Tm) (gmt : Bool) (fuel : Nat)
include hour distinct text

/-- For every hour of the day, `"%I%p"` reads back what `strftime` writes for it
and changes nothing else of `tm`. -/
theorem strptime_reads_back_twelve_hour :
    _strptime (fuel + 5) env input 0 formatIp tm gmt =
      .ok ⟨some input.chars.length, { tm with tm_hour := h }, gmt⟩ := by
  have clock : 1 ≤ (if h % 12 = 0 then 12 else h % 12) ∧ (if h % 12 = 0 then 12 else h % 12) ≤ 12 := by
    split <;> omega
  have at0 : input.chars.drop 0 = pad 2 (if h % 12 = 0 then 12 else h % 12) ++
      (if h < 12 then env.langinfo.am_str else env.langinfo.pm_str).chars := by
    rw [List.drop_zero, text, twelveHour]
  have length : input.chars.length =
      0 + 2 + (if h < 12 then env.langinfo.am_str else env.langinfo.pm_str).chars.length := by
    rw [text, twelveHour, List.length_append, pad_length]
  unfold _strptime
  refine (scan_percent (show formatIp.charAt 0 = .ok '%' from rfl)).trans ?_
  refine (scan_convert (show formatIp.charAt 1 = .ok 'I' from rfl) ⟨by decide, by decide⟩ rfl
    (convHour_pad 'I' (.inr ⟨rfl, clock⟩) at0)).trans ?_
  refine (scan_percent (show formatIp.charAt 2 = .ok '%' from rfl)).trans ?_
  refine (scan_convert (show formatIp.charAt 3 = .ok 'p' from rfl) ⟨by decide, by decide⟩ rfl
    (convAmPm_clock hour distinct rfl (by simp only [Loc.init_buf]; omega) (drop_pad_of_drop at0))).trans ?_
  refine (scan_end (show formatIp.charAt 4 = .ok '\x00' from rfl)).trans ?_
  rw [finish_of_none rfl rfl rfl, length]
  rfl

end TwelveHour

/-- The blank environment with the strings `"AM"` and `"PM"` of the C locale. -/
def amPmEnv : Env :=
  { Env.blank with
    langinfo := { Env.blank.langinfo with am_str := lit "AM" (by decide), pm_str := lit "PM" (by decide) } }

theorem strptime_reads_back_twelve_hour_noon :
    12 < 24 ∧ ¬amPmEnv.langinfo.am_str.chars.map tolower <+: amPmEnv.langinfo.pm_str.chars.map tolower ∧
      (lit "12PM" (by decide)).chars = twelveHour amPmEnv.langinfo 12 ∧
      _strptime 5 amPmEnv (lit "12PM" (by decide)) 0 formatIp ⟨0, 0, 0, 0, 0, 0, 0, 0, 0⟩ false =
        .ok ⟨some (lit "12PM" (by decide)).chars.length, ⟨0, 0, 12, 0, 0, 0, 0, 0, 0⟩, false⟩ :=
  ⟨by decide, by decide, by decide,
    @strptime_reads_back_twelve_hour amPmEnv 12 (by decide) (by decide) _ (by decide) _ false 0⟩

end Strptime
end Userland
