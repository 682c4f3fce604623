import Userland.Strptime.Run

/-!
# Weekday and month names

`%A` and `%B` try the locale's names in order and take the first one the input
starts with, case aside (`strncasecmp(buf, ex, strlen(ex)) == 0`).  When no name
tried before the one written starts it or is started by it, the name written is
the one read back, whatever follows it in the input.  With the modifier `O`,
`%b` and `%h` try no name at all.  `%p` reads the locale's strings for before
and after noon and moves the hour already read, so before the hour it is lost.
-/

namespace Userland
namespace Strptime

/-! ## The search -/

/-- Case aside, neither name starts the other. -/
def Apart (a b : CStr) : Prop :=
  ¬a.chars.map tolower <+: b.chars.map tolower ∧ ¬b.chars.map tolower <+: a.chars.map tolower

instance (a b : CStr) : Decidable (Apart a b) :=
  inferInstanceAs (Decidable (¬_ ∧ ¬_))

/-- A name apart from the one the input starts with does not match it, whatever
follows that name. -/
theorem strncasecmp_apart {s : CStr} {p : Nat} {ex name : CStr} {rest : List Char}
    (at_p : s.chars.drop p = name.chars ++ rest) (apart : Apart ex name) :
    s.strncasecmp p ex.chars = .ok false := by
  have within : p ≤ s.chars.length := by
    by_contra past
    rw [List.drop_eq_nil_of_le (by omega), eq_comm, List.append_eq_nil] at at_p
    exact apart.2 (by simp [at_p.1])
  refine CStr.strncasecmp_not_prefix ex.no_nul within at_p fun starts => ?_
  rw [List.map_append] at starts
  rcases List.prefix_or_prefix_of_prefix starts (List.prefix_append _ _) with starts | starts
  exacts [apart.1 starts, apart.2 starts]

/-- The search passes over the names that do not match and stops at the first
one that does. -/
theorem findName_first {input : CStr} {buf i : Nat} {ex : CStr} {post : List (Nat × CStr)}
    (hit : input.strncasecmp buf ex.chars = .ok true) :
    ∀ {pre : List (Nat × CStr)}, (∀ e ∈ pre, input.strncasecmp buf e.2.chars = .ok false) →
      findName input buf (pre ++ (i, ex) :: post) = .ok (some (i, ex.chars.length))
  | [], _ => by simp [findName, hit, pure_eq_ok]
  | (j, name) :: pre, misses => by
    have miss : input.strncasecmp buf name.chars = .ok false := misses (j, name) (List.mem_cons_self _ _)
    simp only [List.cons_append, findName, miss, ok_bind, Bool.false_eq_true, if_false]
    exact findName_first hit fun e mem => misses e (List.mem_cons_of_mem _ mem)

/-- The indices below `n` run through those below `i`, then `i`. -/
theorem range_split {i n : Nat} (lt : i < n) : ∃ post, List.range n = List.range i ++ i :: post := by
  induction n with
  | zero => omega
  | succ n ih =>
    rcases Nat.lt_succ_iff_lt_or_eq.mp lt with lt | rfl
    · obtain ⟨post, split⟩ := ih lt
      exact ⟨post ++ [n], by rw [List.range_succ, split, List.append_assoc, List.cons_append]⟩
    · exact ⟨[], List.range_succ i⟩

/-! ## The POSIX locale -/

/-- The `i`-th name of a table, empty past its end. -/
def nameTable (names : List String) (i : Nat) : CStr :=
  ⟨(names.getD i "").toList.filter (· ≠ '\x00'), by simp⟩

/-- The strings of the POSIX locale. -/
def Langinfo.posix : Langinfo where
  d_t_fmt := lit "%a %b %e %H:%M:%S %Y" (by decide)
  d_fmt := lit "%m/%d/%y" (by decide)
  t_fmt := lit "%H:%M:%S" (by decide)
  t_fmt_ampm := lit "%I:%M:%S %p" (by decide)
  date_fmt := none
  am_str := lit "AM" (by decide)
  pm_str := lit "PM" (by decide)
  day := nameTable ["Sunday", "Monday", "Tuesday", "Wednesday", "Thursday", "Friday", "Saturday"]
  abday := nameTable ["Sun", "Mon", "Tue", "Wed", "Thu", "Fri", "Sat"]
  mon := nameTable ["January", "February", "March", "April", "May", "June", "July", "August",
    "September", "October", "November", "December"]
  abmon := nameTable ["Jan", "Feb", "Mar", "Apr", "May", "Jun", "Jul", "Aug", "Sep", "Oct", "Nov", "Dec"]

/-- The blank environment with the POSIX locale. -/
def Env.posix : Env := { Env.blank with langinfo := Langinfo.posix }

/-! ## `%A` -/

/-- The full name of day `i` is apart from every name `%A` tries before it. -/
def DayNameApart (lang : Langinfo) (i : Nat) : Prop :=
  ∀ j < i, Apart (lang.day j) (lang.day i) ∧ Apart (lang.abday j) (lang.day i)

instance (lang : Langinfo) (i : Nat) : Decidable (DayNameApart lang i) :=
  inferInstanceAs (Decidable (∀ j < i, Apart (lang.day j) (lang.day i) ∧ Apart (lang.abday j) (lang.day i)))

theorem convWeekday_day {lang : Langinfo} {i : Nat} (apart : DayNameApart lang i) (day : i < 7)
    {input : CStr} {l : Loc} {rest : List Char} (at_buf : input.chars.drop l.buf = (lang.day i).chars ++ rest) :
    convWeekday lang input l = .ok (.next { l with
      buf := l.buf + (lang.day i).chars.length, tm := { l.tm with tm_wday := i },
      flags := { l.flags with wday := true } }) := by
  obtain ⟨post, split⟩ := range_split day
  have found : findName input l.buf (dayNames lang) = .ok (some (i, (lang.day i).chars.length)) := by
    rw [dayNames, split, List.flatMap_append, List.flatMap_cons]
    refine findName_first (CStr.strncasecmp_append at_buf) fun e mem => ?_
    obtain ⟨j, before, mem⟩ := List.mem_flatMap.mp mem
    have earlier := apart j (List.mem_range.mp before)
    simp only [List.mem_cons, List.mem_singleton, List.not_mem_nil, or_false] at mem
    rcases mem with rfl | rfl
    exacts [strncasecmp_apart at_buf earlier.1, strncasecmp_apart at_buf earlier.2]
  simp only [convWeekday, found, ok_bind]
  rfl

/-- `"%A"`. -/
def formatA : CStr := lit "%A" (by decide)

/-- `%A` reads the full name of day `i` back, whatever follows it in the input,
when the names tried before it are apart from it. -/
theorem strptime_reads_weekday_name {env : Env} {i : Nat} (apart : DayNameApart env.langinfo i)
    (day : i < 7) {input : CStr} {buf : Nat} {rest : List Char}
    (at_buf : input.chars.drop buf = (env.langinfo.day i).chars ++ rest) (tm : Tm) (gmt : Bool) (fuel : Nat) :
    _strptime (fuel + 3) env input buf formatA tm gmt =
      .ok ⟨some (buf + (env.langinfo.day i).chars.length), { tm with tm_wday := i }, gmt⟩ := by
  unfold _strptime
  refine (scan_percent (show formatA.charAt 0 = .ok '%' from rfl)).trans ?_
  refine (scan_convert (show formatA.charAt 1 = .ok 'A' from rfl) ⟨by decide, by decide⟩ rfl
    (convWeekday_day apart day (l := Loc.init buf tm gmt) at_buf)).trans ?_
  refine (scan_end (show formatA.charAt 2 = .ok '\x00' from rfl)).trans ?_
  exact finish_of_none rfl rfl rfl

theorem strptime_reads_weekday_name_wednesday :
    DayNameApart Langinfo.posix 3 ∧ 3 < 7 ∧
      (lit "Wednesday 3 June" (by decide)).chars.drop 0 =
        (Langinfo.posix.day 3).chars ++ (lit " 3 June" (by decide)).chars ∧
      _strptime 3 Env.posix (lit "Wednesday 3 June" (by decide)) 0 formatA ⟨0, 0, 0, 0, 0, 0, 0, 0, 0⟩ false =
        .ok ⟨some 9, ⟨0, 0, 0, 0, 0, 0, 3, 0, 0⟩, false⟩ :=
  ⟨by decide, by decide, by decide,
    @strptime_reads_weekday_name Env.posix 3 (by decide) (by decide) _ 0 (lit " 3 June" (by decide)).chars
      (by decide) _ false 0⟩

/-! ## `%B` and `%Ob` -/

/-- The full name of month `i` is apart from the full names before it. -/
def MonthNameApart (lang : Langinfo) (i : Nat) : Prop :=
  ∀ j < i, Apart (lang.mon j) (lang.mon i)

instance (lang : Langinfo) (i : Nat) : Decidable (MonthNameApart lang i) :=
  inferInstanceAs (Decidable (∀ j < i, Apart (lang.mon j) (lang.mon i)))

theorem convMonthName_mon {lang : Langinfo} {i : Nat} (apart : MonthNameApart lang i) (month : i < 12)
    {c : Char} {O : Bool} (full : O = false ∨ c = 'B') {input : CStr} {l : Loc} {rest : List Char}
    (at_buf : input.chars.drop l.buf = (lang.mon i).chars ++ rest) :
    convMonthName lang c O input l = .ok (.next { l with
      buf := l.buf + (lang.mon i).chars.length, tm := { l.tm with tm_mon := i },
      flags := { l.flags with month := true } }) := by
  obtain ⟨post, split⟩ := range_split month
  have tries : monthNames lang c O = (List.range 12).map fun i => (i, lang.mon i) := by
    rw [monthNames, if_neg]
    rintro ⟨alternative, other⟩
    rcases full with rfl | rfl
    exacts [Bool.false_ne_true alternative, other rfl]
  have found : findName input l.buf (monthNames lang c O) = .ok (some (i, (lang.mon i).chars.length)) := by
    rw [tries, split, List.map_append, List.map_cons]
    refine findName_first (CStr.strncasecmp_append at_buf) fun e mem => ?_
    obtain ⟨j, before, rfl⟩ := List.mem_map.mp mem
    exact strncasecmp_apart at_buf (apart j (List.mem_range.mp before))
  simp only [convMonthName, findMonth, found, ok_bind]
  rfl

/-- `"%B"`. -/
def formatB : CStr := lit "%B" (by decide)

/-- `%B` reads the full name of month `i` back, whatever follows it in the
input, when the full names before it are apart from it. -/
theorem strptime_reads_month_name {env : Env} {i : Nat} (apart : MonthNameApart env.langinfo i)
    (month : i < 12) {input : CStr} {buf : Nat} {rest : List Char}
    (at_buf : input.chars.drop buf = (env.langinfo.mon i).chars ++ rest) (tm : Tm) (gmt : Bool) (fuel : Nat) :
    _strptime (fuel + 3) env input buf formatB tm gmt =
      .ok ⟨some (buf + (env.langinfo.mon i).chars.length), { tm with tm_mon := i }, gmt⟩ := by
  unfold _strptime
  refine (scan_percent (show formatB.charAt 0 = .ok '%' from rfl)).trans ?_
  refine (scan_convert (show formatB.charAt 1 = .ok 'B' from rfl) ⟨by decide, by decide⟩ rfl
    (convMonthName_mon apart month (.inl rfl) (l := Loc.init buf tm gmt) at_buf)).trans ?_
  refine (scan_end (show formatB.charAt 2 = .ok '\x00' from rfl)).trans ?_
  exact finish_of_none rfl rfl rfl

theorem strptime_reads_month_name_june :
    MonthNameApart Langinfo.posix 5 ∧ 5 < 12 ∧
      (lit "3 June" (by decide)).chars.drop 2 = (Langinfo.posix.mon 5).chars ++ [] ∧
      _strptime 3 Env.posix (lit "3 June" (by decide)) 2 formatB ⟨0, 0, 0, 0, 0, 0, 0, 0, 0⟩ false =
        .ok ⟨some 6, ⟨0, 0, 0, 0, 5, 0, 0, 0, 0⟩, false⟩ :=
  ⟨by decide, by decide, by decide,
    @strptime_reads_month_name Env.posix 5 (by decide) (by decide) _ 2 [] (by decide) _ false 0⟩

/-- `"%Ob"`. -/
def formatOb : CStr := lit "%Ob" (by decide)

/-- With the modifier `O`, `%b` tries neither the full nor the abbreviated
names, so `"%Ob"` matches no input and leaves `tm` as it was. -/
theorem strptime_rejects_alternative_abbreviated_month (env : Env) (input : CStr) (buf : Nat) (tm : Tm)
    (gmt : Bool) (fuel : Nat) :
    _strptime (fuel + 3) env input buf formatOb tm gmt = .ok ⟨none, tm, gmt⟩ := by
  unfold _strptime
  refine (scan_percent (show formatOb.charAt 0 = .ok '%' from rfl)).trans ?_
  refine (scan_modifier (show formatOb.charAt 1 = .ok 'O' from rfl) (.inr rfl)).trans ?_
  exact scan_convert_null (show formatOb.charAt 2 = .ok 'b' from rfl) ⟨by decide, by decide⟩ rfl rfl

/-! ## `%p` before the hour -/

/-- `%p` on the locale's string for after noon, whatever follows it, when the
string for before noon is apart from it. -/
theorem convAmPm_pm_apart {lang : Langinfo} (apart : Apart lang.am_str lang.pm_str) {input : CStr} {l : Loc}
    {rest : List Char} (early : l.tm.tm_hour ≤ 12) (at_buf : input.chars.drop l.buf = lang.pm_str.chars ++ rest) :
    convAmPm lang input l = .ok (.next { l with
      buf := l.buf + lang.pm_str.chars.length
      tm := { l.tm with tm_hour := if l.tm.tm_hour ≠ 12 then l.tm.tm_hour + 12 else l.tm.tm_hour } }) := by
  simp only [convAmPm, show ¬(l.tm.tm_hour > 12) by omega, if_false, strncasecmp_apart at_buf apart,
    CStr.strncasecmp_append at_buf, ok_bind, Bool.false_eq_true, if_true]
  rfl

/-- `"%p%I"`. -/
def formatpI : CStr := lit "%p%I" (by decide)

/-- Read before the hour, the string for before or after noon only moves the
hour `tm` held, and `%I` then sets the hour it reads: `"%p%I"` gives the same
hour for `AM` and for `PM` (the source's note: bogus if parsed before
hour-related specifiers). -/
theorem strptime_ampm_before_hour_ignored {env : Env} (apart : Apart env.langinfo.am_str env.langinfo.pm_str)
    {str : CStr} (which : str = env.langinfo.am_str ∨ str = env.langinfo.pm_str) {h : Nat} (lo : 1 ≤ h)
    (hi : h ≤ 12) {input : CStr} (text : input.chars = str.chars ++ pad 2 h) (tm : Tm) (early : tm.tm_hour ≤ 12)
    (gmt : Bool) (fuel : Nat) :
    _strptime (fuel + 5) env input 0 formatpI tm gmt =
      .ok ⟨some (str.chars.length + 2), { tm with tm_hour := h }, gmt⟩ := by
  have at0 : input.chars.drop (Loc.init 0 tm gmt).buf = str.chars ++ pad 2 h := by
    rw [Loc.init_buf, List.drop_zero, text]
  have hour (hour : Int) : scan (fuel + 3) env input formatpI 2 .top
      { Loc.init 0 tm gmt with buf := 0 + str.chars.length, tm := { tm with tm_hour := hour } } =
      .ok ⟨some (str.chars.length + 2), { tm with tm_hour := h }, gmt⟩ := by
    have at_hour : input.chars.drop (0 + str.chars.length) = pad 2 h ++ [] := by
      rw [Nat.zero_add, text, List.drop_left, List.append_nil]
    refine (scan_percent (show formatpI.charAt 2 = .ok '%' from rfl)).trans ?_
    refine (scan_convert (show formatpI.charAt 3 = .ok 'I' from rfl) ⟨by decide, by decide⟩ rfl
      (convHour_pad 'I' (.inr ⟨rfl, lo, hi⟩) at_hour)).trans ?_
    refine (scan_end (show formatpI.charAt 4 = .ok '\x00' from rfl)).trans ?_
    rw [finish_of_none rfl rfl rfl, Nat.zero_add]
    rfl
  unfold _strptime
  refine (scan_percent (show formatpI.charAt 0 = .ok '%' from rfl)).trans ?_
  rcases which with rfl | rfl
  · rw [scan_convert (show formatpI.charAt 1 = .ok 'p' from rfl) ⟨by decide, by decide⟩ rfl
      (convAmPm_am env.langinfo early at0)]
    exact hour _
  · rw [scan_convert (show formatpI.charAt 1 = .ok 'p' from rfl) ⟨by decide, by decide⟩ rfl
      (convAmPm_pm_apart apart early at0)]
    exact hour _


example : _strptime 5 Env.posix (lit "AM03" (by decide)) 0 formatpI ⟨0, 0, 0, 0, 0, 0, 0, 0, 0⟩ false =
    .ok ⟨some 4, ⟨0, 0, 3, 0, 0, 0, 0, 0, 0⟩, false⟩ := rfl

/-- `"%p%I"` on `"PM03"`: the hour is 3, not 15. -/
theorem strptime_ampm_before_hour_ignored_pm :
    Apart Env.posix.langinfo.am_str Env.posix.langinfo.pm_str ∧
      (Env.posix.langinfo.pm_str = Env.posix.langinfo.am_str ∨
        Env.posix.langinfo.pm_str = Env.posix.langinfo.pm_str) ∧
      1 ≤ 3 ∧ 3 ≤ 12 ∧ (lit "PM03" (by decide)).chars = Env.posix.langinfo.pm_str.chars ++ pad 2 3 ∧
      (⟨0, 0, 0, 0, 0, 0, 0, 0, 0⟩ : Tm).tm_hour ≤ 12 ∧
      _strptime 5 Env.posix (lit "PM03" (by decide)) 0 formatpI ⟨0, 0, 0, 0, 0, 0, 0, 0, 0⟩ false =
        .ok ⟨some 4, ⟨0, 0, 3, 0, 0, 0, 0, 0, 0⟩, false⟩ :=
  ⟨by decide, .inr rfl, by decide, by decide, by decide, by decide,
    strptime_ampm_before_hour_ignored (by decide) (.inr rfl) (by decide) (by decide) (by decide) _ (by decide) _ 0⟩

end Strptime
end Userland
