import Userland.Strptime.Derive

/-!
# The loop of `_strptime`

`_strptime` walks the format one character at a time.  A character other than
`%` is matched against the input, white space against any run of white space.
After `%` comes a directive, possibly after one modifier `E` or `O`, reached
through `goto label`.  Each directive reads a field of the input into `tm` or
into the locals; the directives `%+ %c %D %F %R %r %T %X %x` parse the input
with another format by a nested call of `_strptime`.  A directive that does not
match returns `NULL`.  Once the format is used up, `finish` completes the date.

The loop and the nested calls run on a shared `fuel`: each round of a loop
takes one unit, and a nested call runs on what is left.  The formats
`nl_langinfo` returns may name each other, so a nested call need not return.
-/

namespace Userland
namespace Strptime

/-! ## The directives that read the input themselves -/

/-- `if (!isdigit((unsigned char)*buf)) return (NULL);`, then the digit loop for
at most `len` digits: the number and where `buf` stops, `none` for `NULL`. -/
def number (input : CStr) (len buf : Nat) : Except Fault (Option (Nat × Nat)) := do
  let c ← input.charAt buf
  if isdigit c then do
    let r ← input.digits len 0 buf
    pure (some r)
  else pure none

/-- `case '%'`: `if (*buf++ != '%') return (NULL);` -/
def convPercent (input : CStr) (l : Loc) : Except Fault Step := do
  let c ← input.charAt l.buf
  pure (if c ≠ '%' then l.null else .next { l with buf := l.buf + 1 })

/-- `case 'C'`: the century, two digits at most. -/
def convCentury (input : CStr) (l : Loc) : Except Fault Step := do
  match ← number input 2 l.buf with
  | none => pure l.null
  | some (i, buf) =>
    pure (.next { l with buf, century := i, flags := { l.flags with year := true } })

/-- `case 'j'`: the day of the year, three digits at most, `1 .. 366`. -/
def convYday (input : CStr) (l : Loc) : Except Fault Step := do
  match ← number input 3 l.buf with
  | none => pure l.null
  | some (i, buf) =>
    if i < 1 ∨ i > 366 then pure l.null
    else pure (.next { l with
      buf, tm := { l.tm with tm_yday := (i : Int) - 1 }, flags := { l.flags with yday := true } })

/-- `case 'M': case 'S':`: minutes or seconds, two digits at most; nothing when
the input is at its end or at white space. -/
def convMinSec (c : Char) (input : CStr) (l : Loc) : Except Fault Step := do
  let b ← input.charAt l.buf
  if b = '\x00' ∨ isspace b then pure (.next l)
  else match ← number input 2 l.buf with
    | none => pure l.null
    | some (i, buf) =>
      if c = 'M' then
        if i > 59 then pure l.null else pure (.next { l with buf, tm := { l.tm with tm_min := i } })
      else
        if i > 60 then pure l.null else pure (.next { l with buf, tm := { l.tm with tm_sec := i } })

/-- For `%k` and `%l`, a blank before the hour is skipped and one digit read:
where the hour starts and how many digits it may have. -/
def hourStart (c : Char) (input : CStr) (buf : Nat) : Except Fault (Nat × Nat) :=
  if c = 'k' ∨ c = 'l' then do
    let b ← input.charAt buf
    pure (if isblank b then (buf + 1, 1) else (buf, 2))
  else pure (buf, 2)

/-- `case 'H': case 'I': case 'k': case 'l':`: the hour, `0 .. 23` for `%H %k`,
`1 .. 12` for `%I %l`. -/
def convHour (c : Char) (input : CStr) (l : Loc) : Except Fault Step := do
  let (buf, len) ← hourStart c input l.buf
  match ← number input len buf with
  | none => pure l.null
  | some (i, buf) =>
    if (if c = 'H' ∨ c = 'k' then i > 23 else i = 0 ∨ i > 12) then pure l.null
    else pure (.next { l with buf, tm := { l.tm with tm_hour := i } })

/-- `case 'p'`: `AM_STR` or `PM_STR`, which moves a 12-hour clock's hour. -/
def convAmPm (lang : Langinfo) (input : CStr) (l : Loc) : Except Fault Step :=
  if l.tm.tm_hour > 12 then pure l.null
  else do
    if ← input.strncasecmp l.buf lang.am_str.chars then
      pure (.next { l with
        buf := l.buf + lang.am_str.chars.length
        tm := { l.tm with tm_hour := if l.tm.tm_hour = 12 then 0 else l.tm.tm_hour } })
    else if ← input.strncasecmp l.buf lang.pm_str.chars then
      pure (.next { l with
        buf := l.buf + lang.pm_str.chars.length
        tm := { l.tm with tm_hour := if l.tm.tm_hour ≠ 12 then l.tm.tm_hour + 12 else l.tm.tm_hour } })
    else pure l.null

/-- The first of the names `ex` in order that the input at `buf` starts with
(`strncasecmp(buf, ex, strlen(ex)) == 0`): its index and its length. -/
def findName (input : CStr) (buf : Nat) : List (Nat × CStr) → Except Fault (Option (Nat × Nat))
  | [] => pure none
  | (i, ex) :: names => do
    if ← input.strncasecmp buf ex.chars then pure (some (i, ex.chars.length))
    else findName input buf names

/-- The names `%A` and `%a` try, in order: `DAY_1 + i`, then `ABDAY_1 + i`, for
each day `i`. -/
def dayNames (lang : Langinfo) : List (Nat × CStr) :=
  (List.range 7).flatMap fun i => [(i, lang.day i), (i, lang.abday i)]

/-- `case 'A': case 'a':`: the weekday by name. -/
def convWeekday (lang : Langinfo) (input : CStr) (l : Loc) : Except Fault Step := do
  match ← findName input l.buf (dayNames lang) with
  | none => pure l.null
  | some (i, len) => pure (.next { l with
      buf := l.buf + len, tm := { l.tm with tm_wday := i }, flags := { l.flags with wday := true } })

/-- `TM_SUNDAY`. -/
def TM_SUNDAY : Int := 0

/-- `TM_MONDAY`. -/
def TM_MONDAY : Int := 1

/-- `case 'U': case 'W':`: the week, two digits at most, `0 .. 53`, kept in the
locals with the first day of its weeks. -/
def convWeek (c : Char) (input : CStr) (l : Loc) : Except Fault Step := do
  match ← number input 2 l.buf with
  | none => pure l.null
  | some (i, buf) =>
    if i > 53 then pure l.null
    else pure (.next { l with
      buf, day_offset := if c = 'U' then TM_SUNDAY else TM_MONDAY, week_offset := i })

/-- `case 'u': case 'w':`: the weekday as one digit, `1 .. 7` for `%u` and
`0 .. 6` for `%w`. -/
def convWdayNumber (c : Char) (input : CStr) (l : Loc) : Except Fault Step := do
  let b ← input.charAt l.buf
  if !isdigit b then pure l.null
  else
    let i : Int := digitValue b
    if i < 0 ∨ i > 7 ∨ (c = 'u' ∧ i < 1) ∨ (c = 'w' ∧ i > 6) then pure l.null
    else pure (.next { l with
      buf := l.buf + 1, tm := { l.tm with tm_wday := i.tmod 7 }, flags := { l.flags with wday := true } })

/-- `case 'e'`: `if (*buf != 0 && isspace((unsigned char)*buf)) buf++;` before
falling through to `case 'd'`. -/
def skipBlankE (input : CStr) (buf : Nat) : Except Fault Nat := do
  let b ← input.charAt buf
  pure (if b ≠ '\x00' ∧ isspace b then buf + 1 else buf)

/-- `case 'd'`, from `buf`: the day of the month, two digits at most, `1 .. 31`. -/
def convMday (input : CStr) (buf : Nat) (l : Loc) : Except Fault Step := do
  match ← number input 2 buf with
  | none => pure l.null
  | some (i, buf) =>
    if i = 0 ∨ i > 31 then pure l.null
    else pure (.next { l with
      buf, tm := { l.tm with tm_mday := i }, flags := { l.flags with mday := true } })

/-- The full month names the first loop of `%B %b %h` tries: with the modifier
`O` only `%OB` tries them. -/
def monthNames (lang : Langinfo) (c : Char) (Oalternative : Bool) : List (Nat × CStr) :=
  if Oalternative ∧ c ≠ 'B' then [] else (List.range 12).map fun i => (i, lang.mon i)

/-- The month by name: the full names, then the abbreviated ones unless the
modifier `O` was given. -/
def findMonth (lang : Langinfo) (c : Char) (Oalternative : Bool) (input : CStr) (buf : Nat) :
    Except Fault (Option (Nat × Nat)) := do
  match ← findName input buf (monthNames lang c Oalternative) with
  | some r => pure (some r)
  | none =>
    if Oalternative then pure none
    else findName input buf ((List.range 12).map fun i => (i, lang.abmon i))

/-- `case 'B': case 'b': case 'h':`: the month by name. -/
def convMonthName (lang : Langinfo) (c : Char) (Oalternative : Bool) (input : CStr) (l : Loc) :
    Except Fault Step := do
  match ← findMonth lang c Oalternative input l.buf with
  | none => pure l.null
  | some (i, len) => pure (.next { l with
      buf := l.buf + len, tm := { l.tm with tm_mon := i }, flags := { l.flags with month := true } })

/-- `case 'm'`: the month, two digits at most, `1 .. 12`. -/
def convMonth (input : CStr) (l : Loc) : Except Fault Step := do
  match ← number input 2 l.buf with
  | none => pure l.null
  | some (i, buf) =>
    if i < 1 ∨ i > 12 then pure l.null
    else pure (.next { l with
      buf, tm := { l.tm with tm_mon := (i : Int) - 1 }, flags := { l.flags with month := true } })

/-- `case 's'`: seconds since the Epoch, by `strtol` and `gmtime_r` into `tm`,
which sets every field and `*GMTp`; when `gmtime_r` returns `NULL`, so does
`_strptime`, with what `gmtime_r` left in `tm`.  `time_t` is `long`, so
`(long)(t = n) != n` never holds. -/
def convEpoch (env : Env) (input : CStr) (l : Loc) : Except Fault Step := do
  let (n, cp, erange) ← input.strtol l.buf
  if erange then pure l.null
  else
    let (tm, converted) := env.gmtime_r n l.tm
    pure (if converted then .next { l with buf := cp, tm, gmt := true, flags := ⟨true, true, true, true, true⟩ }
      else .null tm l.gmt)

/-- `case 'Y': case 'y':`: the year, four digits at most for `%Y`, split into the
century and the year in it, or two digits for `%y`; nothing when the input is at
its end or at white space. -/
def convYear (c : Char) (input : CStr) (l : Loc) : Except Fault Step := do
  let b ← input.charAt l.buf
  if b = '\x00' ∨ isspace b then pure (.next l)
  else match ← number input (if c = 'Y' then 4 else 2) l.buf with
    | none => pure l.null
    | some (i, buf) => pure (.next { l with
        buf
        century := if c = 'Y' then ((i / 100 : Nat) : Int) else l.century
        year := ((i % 100 : Nat) : Int)
        flags := { l.flags with year := true } })

/-- `case 'Z'`: a zone name in capitals, `GMT` and `UTC` or one of `tzname`. -/
def convZone (env : Env) (input : CStr) (l : Loc) : Except Fault Step := do
  let cp ← input.span (fun b => b ≠ '\x00' && isupper b) l.buf
  if cp - l.buf = 0 then pure (.next l)
  else
    let zonestr := (input.chars.drop l.buf).take (cp - l.buf)
    if zonestr = "GMT".toList ∨ zonestr = "UTC".toList then
      pure (.next { l with buf := cp, gmt := true })
    else if zonestr = (env.tzname 0).chars then
      pure (.next { l with buf := cp, tm := { l.tm with tm_isdst := 0 } })
    else if zonestr = (env.tzname 1).chars then
      pure (.next { l with buf := cp, tm := { l.tm with tm_isdst := 1 } })
    else pure l.null

/-- The loop of `%z`, `for (len = 4; len > 0; len--)`, from `len` with the value
`i`: four digits, or two followed by a non-digit; the value in `hhmm` and where
`buf` stops, `none` for `NULL`. -/
def zoneDigits (input : CStr) : Nat → Nat → Nat → Except Fault (Option (Nat × Nat))
  | 0, i, buf => pure (some (i, buf))
  | len + 1, i, buf => do
    let b ← input.charAt buf
    if isdigit b then zoneDigits input len (i * 10 + digitValue b) (buf + 1)
    else if len + 1 = 2 then pure (some (i * 100, buf))
    else pure none

/-- `case 'z'`: an offset `+hhmm`, `-hhmm`, `+hh` or `-hh` from UTC, taken off
the hour and the minute. -/
def convOffset (input : CStr) (l : Loc) : Except Fault Step := do
  let b ← input.charAt l.buf
  if b ≠ '+' ∧ b ≠ '-' then pure l.null
  else
    let sign : Int := if b = '-' then -1 else 1
    match ← zoneDigits input 4 0 (l.buf + 1) with
    | none => pure l.null
    | some (i, buf) =>
      if i > 1400 ∨ (sign = -1 ∧ i > 1200) ∨ i % 100 ≥ 60 then pure l.null
      else pure (.next { l with
        buf, gmt := true
        tm := { l.tm with
          tm_hour := l.tm.tm_hour - sign * ((i / 100 : Nat) : Int)
          tm_min := l.tm.tm_min - sign * ((i % 100 : Nat) : Int) } })

/-- `case 'n': case 't':`: `while (isspace((unsigned char)*buf)) buf++;` -/
def convSpace (input : CStr) (l : Loc) : Except Fault Step := do
  let buf ← input.span isspace l.buf
  pure (.next { l with buf })

/-- `switch (c)` for the directives that read the input themselves; any other
character is the `default` case.  The loop handles `E`, `O` and the directives
that call `_strptime` again before it gets here. -/
def convert (env : Env) (input : CStr) (c : Char) (Oalternative : Bool) (l : Loc) :
    Except Fault Step :=
  match c with
  | '%' => convPercent input l
  | 'C' => convCentury input l
  | 'j' => convYday input l
  | 'M' | 'S' => convMinSec c input l
  | 'H' | 'I' | 'k' | 'l' => convHour c input l
  | 'p' => convAmPm env.langinfo input l
  | 'A' | 'a' => convWeekday env.langinfo input l
  | 'U' | 'W' => convWeek c input l
  | 'u' | 'w' => convWdayNumber c input l
  | 'e' => do
    let buf ← skipBlankE input l.buf
    convMday input buf l
  | 'd' => convMday input l.buf l
  | 'B' | 'b' | 'h' => convMonthName env.langinfo c Oalternative input l
  | 'm' => convMonth input l
  | 's' => convEpoch env input l
  | 'Y' | 'y' => convYear c input l
  | 'Z' => convZone env input l
  | 'z' => convOffset input l
  | 'n' | 't' => convSpace input l
  | _ => pure l.null

/-! ## The loop -/

/-- A format character other than `%`: white space skips the input's white
space; any other character must be the next character of the input. -/
def literal (input : CStr) (c : Char) (l : Loc) : Except Fault Step :=
  if isspace c then do
    let buf ← input.span (fun b => b ≠ '\x00' && isspace b) l.buf
    pure (.next { l with buf })
  else do
    let b ← input.charAt l.buf
    pure (if c ≠ b then l.null else .next { l with buf := l.buf + 1 })

/-- A C string literal of the source. -/
def lit (s : String) (no_nul : '\x00' ∉ s.toList) : CStr := ⟨s.toList, no_nul⟩

/-- The format `%+` parses with where `_DATE_FMT` is not defined. -/
def dateFormat : CStr := lit "%a %b %e %H:%M:%S %Z %Y" (by decide)

/-- The directives that parse the input with another format: that format, and
the flags they set once it matched. -/
def nested (lang : Langinfo) : Char → Option (CStr × (Flags → Flags))
  | '+' => some (lang.date_fmt.getD dateFormat, Flags.setDate)
  | 'c' => some (lang.d_t_fmt, Flags.setDate)
  | 'D' => some (lit "%m/%d/%y" (by decide), Flags.setMonthDayYear)
  | 'F' => some (lit "%Y-%m-%d" (by decide), Flags.setMonthDayYear)
  | 'R' => some (lit "%H:%M" (by decide), id)
  | 'r' => some (lang.t_fmt_ampm, id)
  | 'T' => some (lit "%H:%M:%S" (by decide), id)
  | 'X' => some (lang.t_fmt, id)
  | 'x' => some (lang.d_fmt, Flags.setMonthDayYear)
  | _ => none

/-- `buf = _strptime(buf, fmt, tm, GMTp); if (buf == NULL) return (NULL);`
and the flags set after it. -/
def resume (r : Ret) (set : Flags → Flags) (l : Loc) : Step :=
  match r.buf with
  | none => .null r.tm r.gmt
  | some buf => .next { l with buf, tm := r.tm, gmt := r.gmt, flags := set l.flags }

/-- Where the loop of `_strptime` stands: at the top of the `while`, or at
`label` with the modifiers `E` and `O` seen. -/
inductive Pc
  | top
  | label (Ealternative Oalternative : Bool)

/-- The loop of `_strptime` over `fmt` from `ptr`, reading `input`, with at most
`fuel` rounds left. -/
def scan : Nat → Env → CStr → CStr → Nat → Pc → Loc → Except Fault Ret
  | 0, _, _, _, _, _, _ => .error .fuel
  | fuel + 1, env, input, fmt, ptr, .top, l => do
    let c ← fmt.charAt ptr
    if c = '\x00' then finish l
    else if c ≠ '%' then
      match ← literal input c l with
      | .next l => scan fuel env input fmt (ptr + 1) .top l
      | .null tm gmt => pure ⟨none, tm, gmt⟩
    else scan fuel env input fmt (ptr + 1) (.label false false) l
  | fuel + 1, env, input, fmt, ptr, .label E O, l => do
    let c ← fmt.charAt ptr
    if c = 'E' ∨ c = 'O' then
      if E || O then scan fuel env input fmt (ptr + 1) .top l
      else scan fuel env input fmt (ptr + 1) (.label (c = 'E') (c = 'O')) l
    else
      let step ← (match nested env.langinfo c with
        | some (sub, set) =>
          (fun r => resume r set l) <$> scan fuel env input sub 0 .top (Loc.init l.buf l.tm l.gmt)
        | none => convert env input c O l)
      match step with
      | .next l => scan fuel env input fmt (ptr + 1) .top l
      | .null tm gmt => pure ⟨none, tm, gmt⟩

/-- `_strptime(buf, fmt, tm, GMTp)`, with `buf` a position in the input string
`input`. -/
def _strptime (fuel : Nat) (env : Env) (input : CStr) (buf : Nat) (fmt : CStr) (tm : Tm)
    (gmt : Bool) : Except Fault Ret :=
  scan fuel env input fmt 0 .top (Loc.init buf tm gmt)

/-- `strptime_bsd(buf, fmt, tm)`: the position it returns, `none` for `NULL`,
and `*tm`, moved to local time when the input gave UTC. -/
def strptime_bsd (fuel : Nat) (env : Env) (input fmt : CStr) (tm : Tm) :
    Except Fault (Option Nat × Tm) := do
  let r ← _strptime fuel env input 0 fmt tm false
  pure (if r.buf.isSome && r.gmt then (r.buf, env.localtime_r (env.timegm r.tm) r.tm) else (r.buf, r.tm))

end Strptime
end Userland
