import Userland.Strptime.State

/-!
# Completing the date after the loop

After its loop over the format, `_strptime` completes the date from what the
directives set: `tm_year` from `century` and `year`; the day of the year from
the month and the day, or from the week `%U` or `%W` read with the weekday; then
the month and the day of the month from the day of the year, by a search in
`start_of_month`, and the weekday by Gauss's formula `first_wday_of`.

`start_of_month` is a `13`-entry row per kind of year.  The model reads it
through `monthStart`, for which an index outside the row is a fault: the search
for the month walks the row and faults where the C loop reads past its end.
-/

namespace Userland
namespace Strptime

/-- `isleap(y)`, with C's `%`. -/
def isleap (y : Int) : Bool :=
  y.tmod 4 == 0 && (y.tmod 100 != 0 || y.tmod 400 == 0)

/-- `first_wday_of(year)`: Gauss's formula for the weekday of 1 January, with
C's `%`. -/
def first_wday_of (year : Int) : Int :=
  (1 + 5 * ((year - 1).tmod 4) + 4 * ((year - 1).tmod 100) + 6 * ((year - 1).tmod 400)).tmod 7

/-- `start_of_month[leap]`: the day of the year each month starts on, and the
length of the year last. -/
def start_of_month : Bool → List Int
  | false => [0, 31, 59, 90, 120, 151, 181, 212, 243, 273, 304, 334, 365]
  | true => [0, 31, 60, 91, 121, 152, 182, 213, 244, 274, 305, 335, 366]

/-- `start_of_month[leap][i]`; an index outside the row is a fault. -/
def monthStart (leap : Bool) (i : Int) : Except Fault Int :=
  if 0 ≤ i then
    match (start_of_month leap)[i.toNat]? with
    | some s => .ok s
    | none => .error (.outOfRow leap i)
  else .error (.outOfRow leap i)

/-- `while (tm->tm_yday >= start_of_month[leap][i]) i++;` from index `i`, over
the entries of the row from `i` on: the first index whose entry exceeds `yday`.
Testing the entry after the row's last is a fault. -/
def monthSearch (leap : Bool) (yday : Int) : List Int → Nat → Except Fault Nat
  | [], i => .error (.outOfRow leap i)
  | s :: row, i => if yday ≥ s then monthSearch leap yday row (i + 1) else .ok i

/-- `if (century != -1 || year != -1) { ... tm->tm_year = year; }`. -/
def setYear (century year : Int) (tm : Tm) : Tm :=
  if century ≠ -1 ∨ year ≠ -1 then
    let year := if year = -1 then 0 else year
    let year := if century = -1 then (if year < 69 then year + 100 else year)
      else year + century * 100 - TM_YEAR_BASE
    { tm with tm_year := year }
  else tm

/-- The day of the year, from the month and the day or from the week read by
`%U` or `%W`: the new `tm` and flags, `none` where the code returns `NULL`. -/
def deriveYday (flags : Flags) (day_offset week_offset : Int) (tm : Tm) :
    Except Fault (Option (Tm × Flags)) :=
  if !flags.yday && flags.year then
    if flags.month && flags.mday then do
      let s ← monthStart (isleap (tm.tm_year + TM_YEAR_BASE)) tm.tm_mon
      pure (some ({ tm with tm_yday := s + (tm.tm_mday - 1) }, { flags with yday := true }))
    else if day_offset ≠ -1 then
      let fwo := first_wday_of (tm.tm_year + TM_YEAR_BASE)
      if week_offset = 0 ∧ fwo = day_offset then pure none
      else
        let tmpwday := if flags.wday then tm.tm_wday else day_offset
        let tmpyday := (7 - fwo + day_offset).tmod 7 + (week_offset - 1) * 7 +
          (tmpwday - day_offset + 7).tmod 7
        if tmpyday < 0 ∧ flags.wday then pure none
        else pure (some ({ tm with tm_yday := if tmpyday < 0 then 0 else tmpyday },
          { flags with yday := true }))
    else pure (some (tm, flags))
  else pure (some (tm, flags))

/-- The month from the day of the year, with the carry into January of the next
year when the search passes December. -/
def deriveMonth (tm : Tm) : Except Fault Tm := do
  let leap := isleap (tm.tm_year + TM_YEAR_BASE)
  let i ← monthSearch leap tm.tm_yday (start_of_month leap) 0
  if i > 12 then do
    let s ← monthStart leap 12
    pure { tm with tm_yday := tm.tm_yday - s, tm_year := tm.tm_year + 1, tm_mon := 0 }
  else pure { tm with tm_mon := (i : Int) - 1 }

/-- The day of the month from the day of the year and the month. -/
def deriveMday (tm : Tm) : Except Fault Tm := do
  let s ← monthStart (isleap (tm.tm_year + TM_YEAR_BASE)) tm.tm_mon
  pure { tm with tm_mday := tm.tm_yday - s + 1 }

/-- The weekday from the year and the day of the year. -/
def deriveWday (tm : Tm) : Tm :=
  { tm with tm_wday := (first_wday_of (tm.tm_year + TM_YEAR_BASE) + tm.tm_yday).tmod 7 }

/-- The fields still unset once the year and the day of the year are known: the
month, the day of the month and the weekday. -/
def deriveFields (flags : Flags) (tm : Tm) : Except Fault Tm :=
  if flags.year && flags.yday then do
    let tm ← (if flags.month then pure tm else deriveMonth tm)
    let tm ← (if flags.mday then pure tm else deriveMday tm)
    pure (if flags.wday then tm else deriveWday tm)
  else pure tm

/-- What `_strptime` does once its loop has reached the end of the format. -/
def finish (l : Loc) : Except Fault Ret := do
  let tm := setYear l.century l.year l.tm
  match ← deriveYday l.flags l.day_offset l.week_offset tm with
  | none => pure ⟨none, tm, l.gmt⟩
  | some (tm, flags) => do
    let tm ← deriveFields flags tm
    pure ⟨some l.buf, tm, l.gmt⟩

/-! ## The table and the search -/

theorem monthStart_safe (leap : Bool) (i : Int) : Safe (monthStart leap i) fun _ => True := by
  unfold monthStart
  split
  · split
    · trivial
    · exact Safe.error Fault.noConfusion
  · exact Safe.error Fault.noConfusion

/-- The search stops at the first `m` past the entries at most `yday`. -/
theorem monthSearch_eq {leap : Bool} {yday : Int} :
    ∀ (row : List Int) (i m : Nat), (∀ k < m, ∀ s, row[k]? = some s → s ≤ yday) →
      (∃ s, row[m]? = some s ∧ yday < s) → monthSearch leap yday row i = .ok (i + m)
  | [], _, _, _, ⟨_, past, _⟩ => by simp at past
  | s :: row, i, 0, _, ⟨t, first, above⟩ => by
    simp only [List.getElem?_cons_zero, Option.some.injEq] at first
    subst first
    simp [monthSearch, Int.not_le.mpr above]
  | s :: row, i, m + 1, below, later => by
    have head : s ≤ yday := below 0 (Nat.succ_pos m) s (List.getElem?_cons_zero ..)
    simp only [monthSearch, ge_iff_le, head, if_true]
    rw [monthSearch_eq row (i + 1) m (fun k lt t at_k => below (k + 1) (by omega) t
      (by rwa [List.getElem?_cons_succ])) (by simpa only [List.getElem?_cons_succ] using later)]
    congr 1
    omega

/-- When every entry from `i` on is at most `yday`, the search tests the entry
after the row's last. -/
theorem monthSearch_past {leap : Bool} {yday : Int} :
    ∀ (row : List Int) (i : Nat), (∀ s ∈ row, s ≤ yday) →
      monthSearch leap yday row i = .error (.outOfRow leap (i + row.length))
  | [], i, _ => rfl
  | s :: row, i, below => by
    simp only [monthSearch, ge_iff_le, below s (List.mem_cons_self _ _), if_true]
    rw [monthSearch_past row (i + 1) fun t mem => below t (List.mem_cons_of_mem _ mem),
      List.length_cons, show ((i + 1 : Nat) : Int) + row.length = i + (row.length + 1 : Nat) by omega]

theorem monthSearch_safe (leap : Bool) (yday : Int) :
    ∀ (row : List Int) (i : Nat), Safe (monthSearch leap yday row i) fun _ => True
  | [], _ => Safe.error Fault.noConfusion
  | _ :: row, i => by
    unfold monthSearch
    split
    · exact monthSearch_safe leap yday row (i + 1)
    · trivial

/-- Completing the date reads no string: it returns the position the loop
reached, or `NULL`. -/
theorem finish_safe (l : Loc) : Safe (finish l) fun r => ∀ p, r.buf = some p → p = l.buf := by
  have yday : ∀ f d w tm, Safe (deriveYday f d w tm) fun _ => True := by
    intro f d w tm
    unfold deriveYday
    split
    · split
      · exact (monthStart_safe _ _).bind fun _ _ => trivial
      · split
        · dsimp only
          split_ifs <;> trivial
        · trivial
    · trivial
  have fields : ∀ f tm, Safe (deriveFields f tm) fun _ => True := by
    intro f tm
    unfold deriveFields
    split
    · have month : Safe (deriveMonth tm) fun _ => True := by
        refine (monthSearch_safe _ _ _ _).bind fun i _ => ?_
        split
        · exact (monthStart_safe _ _).bind fun _ _ => trivial
        · trivial
      have mday : ∀ tm, Safe (deriveMday tm) fun _ => True := fun tm =>
        (monthStart_safe _ _).bind fun _ _ => trivial
      refine Safe.bind ?_ fun tm (_ : True) => Safe.bind ?_ fun tm (_ : True) => trivial
      · split
        · trivial
        · exact month
      · split
        · trivial
        · exact mday tm
    · trivial
  refine (yday _ _ _ _).bind fun r _ => ?_
  split
  · exact fun _ none => by cases none
  · exact (fields _ _).bind fun _ _ _ same => (Option.some.inj same).symm

end Strptime
end Userland
