import Userland.Strptime.Derive
import Mathlib.Data.Nat.Defs

/-!
# The proleptic Gregorian calendar, and `strftime`

What the fields `_strptime` fills in mean.  A `Date` is a day of the proleptic
Gregorian calendar; its day of the year counts the days of the months before
it, and its weekday counts on from 1 January of year 0, a Saturday, each year
moving 1 January on by the year's length.  A week number counts the days of the
year up to the date that start a week, so the days before the first such day
are week 0.  `Date.render` writes a date the way `strftime` does for the
directives `%Y %m %d %j %U %W %w %u`.

The second half ties the tables and formulas of `strptime.c` to these
definitions: `start_of_month` holds the days before each month, `isleap` is the
Gregorian rule, and Gauss's formula `first_wday_of` gives the weekday of
1 January for every year from 1 on, but not for year 0.
-/

namespace Userland
namespace Strptime

/-- The Gregorian rule: a year divisible by 4 is a leap year, except one divisible
by 100 but not by 400. -/
def isLeapYear (y : Nat) : Bool := y % 4 == 0 && (y % 100 != 0 || y % 400 == 0)

/-- The days of year `y`. -/
def yearLength (y : Nat) : Nat := if isLeapYear y then 366 else 365

/-- The days of month `m`, `1 .. 12`. -/
def monthLength (leap : Bool) : Nat → Nat
  | 2 => if leap then 29 else 28
  | 4 | 6 | 9 | 11 => 30
  | _ => 31

/-- The days of the months before month `m`. -/
def daysBeforeMonth (leap : Bool) : Nat → Nat
  | 0 | 1 => 0
  | m + 2 => daysBeforeMonth leap (m + 1) + monthLength leap (m + 1)

/-- The weekday of 1 January of year `y`, `0` for Sunday: 1 January of year 0 was
a Saturday, and each year moves it on by its length. -/
def jan1Weekday : Nat → Nat
  | 0 => 6
  | y + 1 => (jan1Weekday y + yearLength y) % 7

/-- A day of the proleptic Gregorian calendar. -/
structure Date where
  /-- The year. -/
  year : Nat
  /-- The month, `1 .. 12`. -/
  month : Nat
  /-- The day of the month, from 1. -/
  day : Nat
  month_pos : 1 ≤ month
  month_le : month ≤ 12
  day_pos : 1 ≤ day
  day_le : day ≤ monthLength (isLeapYear year) month

namespace Date

/-- The days of the year before `d`. -/
def yday (d : Date) : Nat := daysBeforeMonth (isLeapYear d.year) d.month + d.day - 1

/-- The weekday of `d`, `0` for Sunday. -/
def wday (d : Date) : Nat := (jan1Weekday d.year + d.yday) % 7

/-- The week of the year of `d` for weeks that start on weekday `first`: the days
of the year up to `d` that fall on `first`.  The days before the first of them
are week 0. -/
def week (first : Nat) (d : Date) : Nat :=
  ((List.range (d.yday + 1)).filter fun k => (jan1Weekday d.year + k) % 7 = first).length

end Date

/-- The character of the decimal digit `k`. -/
def digitChar (k : Nat) : Char := Char.ofNat ('0'.toNat + k)

/-- `v` in `w` decimal digits, zero-padded: the digits of `v % 10 ^ w`, the most
significant first. -/
def pad : Nat → Nat → List Char
  | 0, _ => []
  | w + 1, v => digitChar (v / 10 ^ w % 10) :: pad w v

namespace Date

/-- What `strftime` writes for the directive `%c`, for the directives this model
covers. -/
def field (d : Date) : Char → List Char
  | 'Y' => pad 4 d.year
  | 'y' => pad 2 (d.year % 100)
  | 'D' => pad 2 d.month ++ '/' :: (pad 2 d.day ++ '/' :: pad 2 (d.year % 100))
  | 'm' => pad 2 d.month
  | 'd' => pad 2 d.day
  | 'j' => pad 3 (d.yday + 1)
  | 'U' => pad 2 (d.week 0)
  | 'W' => pad 2 (d.week 1)
  | 'w' => pad 1 d.wday
  | 'u' => pad 1 (if d.wday = 0 then 7 else d.wday)
  | c => ['%', c]

/-- `strftime` of `d` with a format of the directives of `field`. -/
def render (d : Date) : List Char → List Char
  | '%' :: c :: fmt => d.field c ++ d.render fmt
  | c :: fmt => c :: d.render fmt
  | [] => []

end Date

/-! ## Digits -/

theorem digitChar_spec : ∀ k < 10, digitChar k ≠ '\x00' ∧ isdigit (digitChar k) = true ∧
    isspace (digitChar k) = false ∧ digitValue (digitChar k) = k := by
  decide

theorem pad_length : ∀ w v, (pad w v).length = w
  | 0, _ => rfl
  | w + 1, v => by simp [pad, pad_length w v]

theorem mem_pad {c : Char} : ∀ {w v}, c ∈ pad w v → ∃ k < 10, c = digitChar k
  | w + 1, v, mem => by
    rcases List.mem_cons.mp mem with rfl | later
    · exact ⟨_, Nat.mod_lt _ (by decide), rfl⟩
    · exact mem_pad later

theorem nul_not_mem_pad (w v : Nat) : '\x00' ∉ pad w v := fun mem => by
  obtain ⟨k, lt, same⟩ := mem_pad mem
  exact (digitChar_spec k lt).1 same.symm

theorem Date.nul_not_mem_render (d : Date) {fmt : List Char} (clean : '\x00' ∉ fmt) :
    '\x00' ∉ d.render fmt := by
  induction fmt using Date.render.induct d with
  | case1 c fmt ih =>
    simp only [Date.render, List.mem_append, not_or]
    refine ⟨?_, ih fun mem => clean (by simp [mem])⟩
    unfold Date.field
    split <;> first
      | exact nul_not_mem_pad _ _
      | exact fun mem => clean (by simp at mem; subst mem; simp)
      | simp [nul_not_mem_pad]
  | case2 c fmt _ ih =>
    simp only [List.mem_cons, not_or] at clean
    rw [Date.render]
    · simp only [List.mem_cons, not_or]
      exact ⟨clean.1, ih clean.2⟩
    · assumption
  | case3 => simp [Date.render]

/-- `strftime(s, ..., fmt, d)`: the C string it writes. -/
def Date.strftime (d : Date) (fmt : CStr) : CStr := ⟨d.render fmt.chars, d.nul_not_mem_render fmt.no_nul⟩

/-! ## The calendar -/

theorem jan1Weekday_lt : ∀ y, jan1Weekday y < 7
  | 0 => by decide
  | _ + 1 => Nat.mod_lt _ (by decide)

theorem monthLength_le (leap : Bool) (m : Nat) : monthLength leap m ≤ 31 := by
  unfold monthLength
  split <;> (try split) <;> decide

theorem daysBeforeMonth_succ (leap : Bool) {m : Nat} (pos : 1 ≤ m) :
    daysBeforeMonth leap (m + 1) = daysBeforeMonth leap m + monthLength leap m := by
  obtain ⟨k, rfl⟩ : ∃ k, m = k + 1 := ⟨m - 1, by omega⟩
  rfl

theorem daysBeforeMonth_thirteen (leap : Bool) :
    daysBeforeMonth leap 13 = if leap then 366 else 365 := by
  cases leap <;> decide

/-- The day of the year lies in its month. -/
theorem Date.yday_within (d : Date) :
    daysBeforeMonth (isLeapYear d.year) d.month ≤ d.yday ∧
      d.yday < daysBeforeMonth (isLeapYear d.year) (d.month + 1) := by
  rw [daysBeforeMonth_succ _ d.month_pos, Date.yday]
  have := d.day_pos
  have := d.day_le
  omega

theorem daysBeforeMonth_le_succ (leap : Bool) : ∀ m, daysBeforeMonth leap m ≤ daysBeforeMonth leap (m + 1)
  | 0 => le_rfl
  | _ + 1 => Nat.le_add_right _ _

theorem daysBeforeMonth_mono (leap : Bool) {k m : Nat} (le : k ≤ m) :
    daysBeforeMonth leap k ≤ daysBeforeMonth leap m := by
  induction le with
  | refl => exact le_rfl
  | step _ ih => exact ih.trans (daysBeforeMonth_le_succ leap _)

theorem Date.yday_lt (d : Date) : d.yday < yearLength d.year := by
  have within := d.yday_within.2
  have more := daysBeforeMonth_mono (isLeapYear d.year) (Nat.succ_le_succ d.month_le)
  rw [daysBeforeMonth_thirteen] at more
  unfold yearLength
  split <;> simp_all <;> omega

theorem Date.yday_le (d : Date) : d.yday ≤ 365 := by
  have := d.yday_lt
  unfold yearLength at this
  split at this <;> omega

/-- The count of week starts up to day `n` of a year whose 1 January falls on
weekday `j`. -/
theorem weekStarts_eq {j first : Nat} (firstBelow : first < 7) :
    ∀ n, ((List.range (n + 1)).filter fun k => (j + k) % 7 = first).length =
      (n + 7 - ((j + n) % 7 + 7 - first) % 7) / 7 := by
  intro n
  induction n with
  | zero =>
    simp only [Nat.zero_add, List.range_succ, List.range_zero, List.nil_append, List.filter_cons,
      List.filter_nil, Nat.add_zero]
    split <;> simp_all
    omega
  | succ n ih =>
    rw [List.range_succ, List.filter_append, List.length_append, ih]
    simp only [List.filter_cons, List.filter_nil, decide_eq_true_eq]
    split <;> simp only [List.length_cons, List.length_nil] <;> omega

theorem Date.week_eq (first : Nat) (below : first < 7) (d : Date) :
    d.week first = (d.yday + 7 - (d.wday + 7 - first) % 7) / 7 :=
  weekStarts_eq below d.yday

/-! ## The tables and formulas of `strptime.c` -/

theorem isleap_natCast (y : Nat) : isleap y = isLeapYear y := by
  have tmod : ∀ n : Nat, (y : Int).tmod n = ((y % n : Nat) : Int) := fun _ => rfl
  rw [Bool.eq_iff_iff]
  simp only [isleap, isLeapYear, Bool.and_eq_true, Bool.or_eq_true, beq_iff_eq, bne_iff_ne, ne_eq,
    show (4 : Int) = (4 : Nat) from rfl, show (100 : Int) = (100 : Nat) from rfl,
    show (400 : Int) = (400 : Nat) from rfl, tmod]
  omega

theorem start_of_month_eq (leap : Bool) :
    ∀ m < 13, (start_of_month leap)[m]? = some (daysBeforeMonth leap (m + 1) : Int) := by
  cases leap <;> decide

theorem yearLength_add_century (y : Nat) :
    yearLength y + (if y % 100 = 0 then 1 else 0) =
      365 + (if y % 4 = 0 then 1 else 0) + (if y % 400 = 0 then 1 else 0) := by
  by_cases h400 : y % 400 = 0
  · simp [yearLength, isLeapYear, h400, show y % 4 = 0 by omega, show y % 100 = 0 by omega]
  by_cases h100 : y % 100 = 0
  · simp [yearLength, isLeapYear, h100, h400, show y % 4 = 0 by omega]
  by_cases h4 : y % 4 = 0 <;> simp [yearLength, isLeapYear, h4, h100, h400]

/-- Gauss's formula for 1 January of year `n + 1`, over the naturals. -/
def gauss (n : Nat) : Nat := (1 + 5 * (n % 4) + 4 * (n % 100) + 6 * (n % 400)) % 7

/-- From one year to the next the formula moves by the length of the year, modulo 7:
each remainder wraps around at its own period. -/
theorem gauss_succ (n : Nat) : gauss (n + 1) = (gauss n + yearLength (n + 1)) % 7 := by
  have four : 5 * ((n + 1) % 4) + 20 * (if (n + 1) % 4 = 0 then 1 else 0) = 5 * (n % 4) + 5 := by
    split <;> omega
  have hundred : 4 * ((n + 1) % 100) + 400 * (if (n + 1) % 100 = 0 then 1 else 0) =
      4 * (n % 100) + 4 := by
    split <;> omega
  have fourHundred : 6 * ((n + 1) % 400) + 2400 * (if (n + 1) % 400 = 0 then 1 else 0) =
      6 * (n % 400) + 6 := by
    split <;> omega
  have leap := yearLength_add_century (n + 1)
  unfold gauss
  generalize (if (n + 1) % 4 = 0 then 1 else 0) = i4 at *
  generalize (if (n + 1) % 100 = 0 then 1 else 0) = i100 at *
  generalize (if (n + 1) % 400 = 0 then 1 else 0) = i400 at *
  omega

theorem gauss_eq_jan1Weekday : ∀ n, gauss n = jan1Weekday (n + 1)
  | 0 => rfl
  | n + 1 => by rw [gauss_succ, gauss_eq_jan1Weekday n]; rfl

/-- Gauss's formula gives the weekday of 1 January of every year from 1 on. -/
theorem first_wday_of_natCast {y : Nat} (pos : 1 ≤ y) : first_wday_of y = jan1Weekday y := by
  obtain ⟨n, rfl⟩ : ∃ n, y = n + 1 := ⟨y - 1, by omega⟩
  rw [first_wday_of, show ((n + 1 : Nat) : Int) - 1 = (n : Int) by omega, ← gauss_eq_jan1Weekday]
  rfl

/-- For year 0 it gives Sunday; 1 January of year 0 was a Saturday. -/
theorem first_wday_of_zero : first_wday_of 0 = 0 ∧ jan1Weekday 0 = 6 := ⟨by decide, rfl⟩

/-- `first_wday_of` over the years `_strptime` hands it: from year 1 on it lies in
`0 .. 6`, is the weekday of 1 January and moves from one year to the next by the
length of the year, and it is Saturday for 2000.  For year 0 each remainder of
`year - 1 = -1` is negative under C's truncating `%`: the formula gives Sunday for
a Saturday, and the step from year 0 to year 1 is off by the same day. -/
theorem first_wday_of_wrong_for_year_zero :
    (∀ Y : Nat, 1 ≤ Y →
      0 ≤ first_wday_of Y ∧ first_wday_of Y ≤ 6 ∧ first_wday_of Y = jan1Weekday Y ∧
      first_wday_of (Y + 1) = (first_wday_of Y + 365 + if isleap Y then 1 else 0) % 7) ∧
    first_wday_of 2000 = 6 ∧ first_wday_of 0 = 0 ∧ jan1Weekday 0 = 6 ∧
    first_wday_of 1 ≠ (first_wday_of 0 + 365 + if isleap 0 then 1 else 0) % 7 := by
  refine ⟨fun Y pos => ?_, by decide, first_wday_of_zero.1, rfl, by decide⟩
  have now := first_wday_of_natCast pos
  have next := first_wday_of_natCast (show 1 ≤ Y + 1 by omega)
  have bound := jan1Weekday_lt Y
  push_cast at next
  refine ⟨by omega, by omega, now, ?_⟩
  rw [now, next, isleap_natCast, jan1Weekday, yearLength]
  split <;> push_cast <;> omega

end Strptime
end Userland
