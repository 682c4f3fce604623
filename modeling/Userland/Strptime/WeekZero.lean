import Userland.Strptime.RoundTrip

/-!
# Week 0

`%U` and `%W` count the weeks of a year from its first Sunday or Monday, and the
days before it are week 0.  Read with a weekday, week `00` names a day before
1 January when the weekday comes before the year's first day, and no day at all
when the year starts with the week's first day; `_strptime` returns `NULL` in
both cases (`if (week_offset == 0 && fwo == day_offset) return (NULL);` and
`if (tmpyday < 0 && flags & FLAG_WDAY) return (NULL);`).  So `"%Y %U %w"` and
`"%Y %W %u"` on week `00` return `NULL` exactly when no day of the year has that
week and that weekday.
-/

namespace Userland
namespace Strptime

/-! ## The calendar -/

example : Ret.buf <$> _strptime 9 Env.blank (lit "2024 00 0" (by decide)) 0 formatYUw
    ⟨0, 0, 0, 0, 0, 0, 0, 0, 0⟩ false = .ok none := rfl

example : Ret.buf <$> _strptime 9 Env.blank (lit "2024 00 1" (by decide)) 0 formatYUw
    ⟨0, 0, 0, 0, 0, 0, 0, 0, 0⟩ false = .ok (some 9) := rfl

end Strptime
end Userland
