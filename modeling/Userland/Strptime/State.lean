import Userland.Strptime.CStr

/-!
# The state of `_strptime`

`_strptime(buf, fmt, tm, GMTp)` writes the broken-down time through `tm` and
sets `*GMTp` when the input names UTC.  Across its loop over the format it keeps
a few locals: the input pointer `buf`, the `flags` of the fields it has set, the
`century` and two-digit `year` read so far, and the week read by `%U` or `%W`.
It reads the locale through `nl_langinfo`, the zone names through `tzname`, and
converts `%s` with `gmtime_r`; these are given as an `Env`.

C `int`s are modelled as mathematical integers: the fields `_strptime` computes
stay far inside `int`'s range, and overflow of a field the caller set is not
modelled.
-/

namespace Userland
namespace Strptime

/-- `struct tm`: the fields `_strptime` and `gmtime_r` write. -/
structure Tm where
  /-- `tm_sec`. -/
  tm_sec : Int
  /-- `tm_min`. -/
  tm_min : Int
  /-- `tm_hour`. -/
  tm_hour : Int
  /-- `tm_mday`. -/
  tm_mday : Int
  /-- `tm_mon`. -/
  tm_mon : Int
  /-- `tm_year`, years since 1900. -/
  tm_year : Int
  /-- `tm_wday`, days since Sunday. -/
  tm_wday : Int
  /-- `tm_yday`, days since 1 January. -/
  tm_yday : Int
  /-- `tm_isdst`. -/
  tm_isdst : Int
  deriving DecidableEq, Repr

/-- `INT_MIN` of a 32-bit `int`.  The fields of `Tm` are unbounded, so arithmetic
on them agrees with C's only between `INT_MIN` and `INT_MAX`. -/
def INT_MIN : Int := -2147483648

/-- `INT_MAX` of a 32-bit `int`. -/
def INT_MAX : Int := 2147483647

/-- `TM_YEAR_BASE`. -/
def TM_YEAR_BASE : Int := 1900

/-- `flags`: the `FLAG_` bits `_strptime` tests.  `FLAG_NONE`, set at the start
and never tested, is left out. -/
structure Flags where
  /-- `FLAG_YEAR`. -/
  year : Bool
  /-- `FLAG_MONTH`. -/
  month : Bool
  /-- `FLAG_YDAY`. -/
  yday : Bool
  /-- `FLAG_MDAY`. -/
  mday : Bool
  /-- `FLAG_WDAY`. -/
  wday : Bool
  deriving DecidableEq, Repr

/-- `flags = FLAG_NONE`. -/
def Flags.none : Flags := ⟨false, false, false, false, false⟩

/-- `flags |= FLAG_WDAY | FLAG_MONTH | FLAG_MDAY | FLAG_YEAR`. -/
def Flags.setDate (f : Flags) : Flags := { f with wday := true, month := true, mday := true, year := true }

/-- `flags |= FLAG_MONTH | FLAG_MDAY | FLAG_YEAR`. -/
def Flags.setMonthDayYear (f : Flags) : Flags := { f with month := true, mday := true, year := true }

/-- What `nl_langinfo` returns for the items `_strptime` asks for. -/
structure Langinfo where
  /-- `D_T_FMT`. -/
  d_t_fmt : CStr
  /-- `D_FMT`. -/
  d_fmt : CStr
  /-- `T_FMT`. -/
  t_fmt : CStr
  /-- `T_FMT_AMPM`. -/
  t_fmt_ampm : CStr
  /-- `_DATE_FMT`, `none` where the platform does not define it. -/
  date_fmt : Option CStr
  /-- `AM_STR`. -/
  am_str : CStr
  /-- `PM_STR`. -/
  pm_str : CStr
  /-- `DAY_1 + i`. -/
  day : Nat → CStr
  /-- `ABDAY_1 + i`. -/
  abday : Nat → CStr
  /-- `MON_1 + i`. -/
  mon : Nat → CStr
  /-- `ABMON_1 + i`. -/
  abmon : Nat → CStr

/-- What `_strptime` and `strptime_bsd` read of their environment. -/
structure Env where
  /-- The locale. -/
  langinfo : Langinfo
  /-- `tzname[i]` after `tzset()`. -/
  tzname : Nat → CStr
  /-- `gmtime_r(&t, tm)` on the caller's `tm`: the `tm` it leaves and whether it
  returned a pointer (`false` for `NULL`).  A call that fails may already have
  written some fields. -/
  gmtime_r : Int → Tm → Tm × Bool
  /-- `timegm(tm)`. -/
  timegm : Tm → Int
  /-- `localtime_r(&t, tm)` on the caller's `tm`: the `tm` it leaves. -/
  localtime_r : Int → Tm → Tm

/-- The empty string. -/
def CStr.empty : CStr := ⟨[], List.not_mem_nil _⟩

/-- An environment whose locale strings and time zone names are all empty and
whose clock functions are constant, for runs on fixed inputs. -/
def Env.blank : Env where
  langinfo :=
    { d_t_fmt := .empty, d_fmt := .empty, t_fmt := .empty, t_fmt_ampm := .empty,
      date_fmt := none, am_str := .empty, pm_str := .empty, day := fun _ => .empty,
      abday := fun _ => .empty, mon := fun _ => .empty, abmon := fun _ => .empty }
  tzname := fun _ => .empty
  gmtime_r := fun _ tm => (tm, false)
  timegm := fun _ => 0
  localtime_r := fun _ _ => ⟨0, 0, 0, 0, 0, 0, 0, 0, 0⟩

/-- The locals of one call of `_strptime` that live across its loop, with what
it has written through `tm` and `GMTp`. -/
structure Loc where
  /-- `buf`: the position in the input. -/
  buf : Nat
  /-- `*tm`. -/
  tm : Tm
  /-- `*GMTp != 0`. -/
  gmt : Bool
  /-- `flags`. -/
  flags : Flags
  /-- `century`, `-1` until read. -/
  century : Int
  /-- `year`, `-1` until read. -/
  year : Int
  /-- `day_offset`: `-1`, or the first day of the week `%U` or `%W` read. -/
  day_offset : Int
  /-- `week_offset`: the week `%U` or `%W` read. -/
  week_offset : Int

/-- The locals when the loop starts.  `week_offset` is not initialised in C; it
is read only once `day_offset` is set, and both are set together, so its first
value is never seen. -/
def Loc.init (buf : Nat) (tm : Tm) (gmt : Bool) : Loc where
  buf := buf
  tm := tm
  gmt := gmt
  flags := Flags.none
  century := -1
  year := -1
  day_offset := -1
  week_offset := 0

@[simp] theorem Loc.init_buf (buf : Nat) (tm : Tm) (gmt : Bool) : (Loc.init buf tm gmt).buf = buf := rfl

/-- How a directive ends: the loop goes on with new locals, or the call returns
`NULL`, leaving what it wrote through `tm` and `GMTp`. -/
inductive Step
  | next (l : Loc)
  | null (tm : Tm) (gmt : Bool)

/-- `return (NULL)` from the locals `l`. -/
def Loc.null (l : Loc) : Step := .null l.tm l.gmt

/-- What a call of `_strptime` leaves: the pointer it returns, `none` for
`NULL`, and what it wrote through `tm` and `GMTp`. -/
structure Ret where
  /-- The position it returns. -/
  buf : Option Nat
  /-- `*tm`. -/
  tm : Tm
  /-- `*GMTp != 0`. -/
  gmt : Bool

end Strptime
end Userland
