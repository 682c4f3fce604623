import Userland.Strptime.Inline
import Userland.Strptime.Names

/-!
# Enough fuel

The loop of `_strptime` reads its format once and calls `_strptime` again for
the directives of other formats; the model bounds that recursion with fuel.
The directives read at most their input, the date's completion reads a table,
and none of them calls `_strptime`, so only the nested calls can run the fuel
out.  `%D %F %R %T` and `%+` without `_DATE_FMT` parse with fixed formats that
call nothing; `%c %x %X %r` and `%+` parse with the locale's formats.  When
those call no locale format in turn, every call of `_strptime` returns: some
fuel gives a result other than running out.  A locale whose `D_T_FMT` reads `%c`
makes `%c` call itself for ever (in C, until the stack is exhausted).
-/

namespace Userland
namespace Strptime

/-! ## Results other than running out of fuel -/

/-- `r` is a result, or a fault other than running out of fuel. -/
def Settles {α : Type} (r : Except Fault α) : Prop := r ≠ .error .fuel

namespace Settles

variable {α β : Type}

theorem pure {a : α} : Settles (Pure.pure a : Except Fault α) := nofun

theorem overread : Settles (.error .overread : Except Fault α) := nofun

/-- A fault of one result type is a fault of any other. -/
theorem error {e : Fault} (first : Settles (.error e : Except Fault α)) :
    Settles (.error e : Except Fault β) :=
  fun ran => first (by cases ran; rfl)

theorem bind {x : Except Fault α} {f : α → Except Fault β} (first : Settles x)
    (rest : ∀ a, Settles (f a)) : Settles (x >>= f) := by
  cases x with
  | error e => exact first.error
  | ok a => exact rest a

end Settles

/-! ## The primitives and the directives -/

namespace CStr

variable (s : CStr)

theorem charAt_settles (p : Nat) : Settles (s.charAt p) := by
  unfold CStr.charAt
  split
  · exact Settles.pure
  · split
    · exact Settles.pure
    · exact Settles.overread

theorem span_settles (q : Char → Bool) (cp : Nat) : Settles (s.span q cp) := by
  suffices loop : ∀ n cp, Settles (span.go s q n cp) from loop _ cp
  intro n
  induction n with
  | zero => intro _; exact Settles.overread
  | succ n ih => exact fun cp => (s.charAt_settles cp).bind fun c => by split; exacts [ih _, Settles.pure]

theorem strncasecmp_settles : ∀ (p : Nat) (ex : List Char), Settles (s.strncasecmp p ex)
  | _, [] => Settles.pure
  | p, _ :: ex => (s.charAt_settles p).bind fun _ => by
    split
    exacts [strncasecmp_settles (p + 1) ex, Settles.pure]

theorem digits_settles : ∀ (len i buf : Nat), Settles (s.digits len i buf)
  | 0, _, _ => Settles.pure
  | len + 1, i, buf => (s.charAt_settles buf).bind fun _ => by
    split
    exacts [digits_settles len _ _, Settles.pure]

theorem strtol_settles (p : Nat) : Settles (s.strtol p) :=
  (s.span_settles _ p).bind fun _ => (s.charAt_settles _).bind fun _ =>
    (s.span_settles _ _).bind fun _ => by split <;> split <;> exact Settles.pure

end CStr

section Directives

variable (env : Env) (input : CStr) (l : Loc)

theorem number_settles (len buf : Nat) : Settles (number input len buf) :=
  (input.charAt_settles buf).bind fun _ => by
    split
    exacts [(input.digits_settles _ _ _).bind fun _ => Settles.pure, Settles.pure]

theorem findName_settles (buf : Nat) : ∀ names, Settles (findName input buf names)
  | [] => Settles.pure
  | _ :: names => (input.strncasecmp_settles _ _).bind fun _ => by
    split
    exacts [Settles.pure, findName_settles buf names]

theorem zoneDigits_settles : ∀ (len i buf : Nat), Settles (zoneDigits input len i buf)
  | 0, _, _ => Settles.pure
  | len + 1, _, buf => (input.charAt_settles buf).bind fun _ => by
    split
    · exact zoneDigits_settles len _ _
    · split <;> exact Settles.pure

theorem Settles.ite {α : Type} {p : Prop} [Decidable p] {a b : Except Fault α} (yes : Settles a)
    (no : Settles b) : Settles (if p then a else b) := by
  split
  exacts [yes, no]

/-- A step that is `NULL` or the next locals, chosen by any tests. -/
theorem Settles.step {p : Prop} [Decidable p] {a b : Step} :
    Settles (if p then Pure.pure a else Pure.pure b : Except Fault Step) :=
  Settles.ite Settles.pure Settles.pure

theorem convPercent_settles : Settles (convPercent input l) :=
  (input.charAt_settles _).bind fun _ => Settles.pure

theorem convCentury_settles : Settles (convCentury input l) :=
  (number_settles input _ _).bind fun r => by rcases r with _ | ⟨i, buf⟩ <;> exact Settles.pure

theorem convYday_settles : Settles (convYday input l) :=
  (number_settles input _ _).bind fun r => by
    rcases r with _ | ⟨i, buf⟩
    exacts [Settles.pure, Settles.step]

theorem convMinSec_settles (c : Char) : Settles (convMinSec c input l) :=
  (input.charAt_settles _).bind fun _ => by
    split
    · exact Settles.pure
    · refine (number_settles input _ _).bind fun r => ?_
      rcases r with _ | ⟨i, buf⟩
      · exact Settles.pure
      · exact Settles.ite Settles.step Settles.step

theorem convHour_settles (c : Char) : Settles (convHour c input l) := by
  refine Settles.bind ?_ fun _ => (number_settles input _ _).bind fun r => ?_
  · unfold hourStart
    split
    exacts [(input.charAt_settles _).bind fun _ => Settles.pure, Settles.pure]
  · rcases r with _ | ⟨i, buf⟩
    exacts [Settles.pure, Settles.step]

theorem convAmPm_settles (lang : Langinfo) : Settles (convAmPm lang input l) := by
  unfold convAmPm
  split
  · exact Settles.pure
  · exact (input.strncasecmp_settles _ _).bind fun _ => by
      split
      exacts [Settles.pure, (input.strncasecmp_settles _ _).bind fun _ => Settles.step]

theorem convWeekday_settles (lang : Langinfo) : Settles (convWeekday lang input l) :=
  (findName_settles input _ _).bind fun r => by rcases r with _ | ⟨i, len⟩ <;> exact Settles.pure

theorem convWeek_settles (c : Char) : Settles (convWeek c input l) :=
  (number_settles input _ _).bind fun r => by
    rcases r with _ | ⟨i, buf⟩
    exacts [Settles.pure, Settles.step]

theorem convWdayNumber_settles (c : Char) : Settles (convWdayNumber c input l) :=
  (input.charAt_settles _).bind fun _ => by
    split
    exacts [Settles.pure, Settles.step]

theorem convMday_settles (buf : Nat) : Settles (convMday input buf l) :=
  (number_settles input _ _).bind fun r => by
    rcases r with _ | ⟨i, buf⟩
    exacts [Settles.pure, Settles.step]

theorem convMonthName_settles (lang : Langinfo) (c : Char) (O : Bool) :
    Settles (convMonthName lang c O input l) := by
  refine Settles.bind ?_ fun r => by rcases r with _ | ⟨i, len⟩ <;> exact Settles.pure
  refine (findName_settles input _ _).bind fun r => ?_
  rcases r with _ | r
  exacts [Settles.ite Settles.pure (findName_settles input _ _), Settles.pure]

theorem convMonth_settles : Settles (convMonth input l) :=
  (number_settles input _ _).bind fun r => by
    rcases r with _ | ⟨i, buf⟩
    exacts [Settles.pure, Settles.step]

theorem convEpoch_settles : Settles (convEpoch env input l) :=
  (input.strtol_settles _).bind fun _ => Settles.ite Settles.pure Settles.pure

theorem convYear_settles (c : Char) : Settles (convYear c input l) :=
  (input.charAt_settles _).bind fun _ => by
    split
    · exact Settles.pure
    · exact (number_settles input _ _).bind fun r => by rcases r with _ | ⟨i, buf⟩ <;> exact Settles.pure

theorem convZone_settles : Settles (convZone env input l) :=
  (input.span_settles _ _).bind fun _ =>
    Settles.ite Settles.pure (Settles.ite Settles.pure (Settles.ite Settles.pure Settles.step))

theorem convOffset_settles : Settles (convOffset input l) :=
  (input.charAt_settles _).bind fun _ => by
    split
    · exact Settles.pure
    · exact (zoneDigits_settles input _ _ _).bind fun r => by
        rcases r with _ | ⟨i, buf⟩
        exacts [Settles.pure, Settles.step]

theorem convSpace_settles : Settles (convSpace input l) :=
  (input.span_settles _ _).bind fun _ => Settles.pure

/-- No directive runs the fuel out: only the nested calls of the loop can. -/
theorem convert_settles (c : Char) (O : Bool) : Settles (convert env input c O l) := by
  unfold convert
  split
  · exact convPercent_settles input l
  · exact convCentury_settles input l
  · exact convYday_settles input l
  · exact convMinSec_settles input l _
  · exact convMinSec_settles input l _
  · exact convHour_settles input l _
  · exact convHour_settles input l _
  · exact convHour_settles input l _
  · exact convHour_settles input l _
  · exact convAmPm_settles input l _
  · exact convWeekday_settles input l _
  · exact convWeekday_settles input l _
  · exact convWeek_settles input l _
  · exact convWeek_settles input l _
  · exact convWdayNumber_settles input l _
  · exact convWdayNumber_settles input l _
  · exact ((input.charAt_settles _).bind fun _ => Settles.pure).bind fun _ => convMday_settles input l _
  · exact convMday_settles input l _
  · exact convMonthName_settles input l _ _ _
  · exact convMonthName_settles input l _ _ _
  · exact convMonthName_settles input l _ _ _
  · exact convMonth_settles input l
  · exact convEpoch_settles env input l
  · exact convYear_settles input l _
  · exact convYear_settles input l _
  · exact convZone_settles env input l
  · exact convOffset_settles input l
  · exact convSpace_settles input l
  · exact convSpace_settles input l
  · exact Settles.pure

theorem literal_settles (c : Char) : Settles (literal input c l) := by
  unfold literal
  split
  · exact (input.span_settles _ _).bind fun _ => Settles.pure
  · exact (input.charAt_settles _).bind fun _ => Settles.pure

end Directives

/-! ## The completion of the date -/

theorem monthStart_settles (leap : Bool) (i : Int) : Settles (monthStart leap i) := by
  unfold monthStart
  split
  · split
    exacts [Settles.pure, nofun]
  · exact nofun

theorem monthSearch_settles (leap : Bool) (yday : Int) : ∀ row i, Settles (monthSearch leap yday row i)
  | [], _ => nofun
  | _ :: row, i => Settles.ite (monthSearch_settles leap yday row (i + 1)) Settles.pure

theorem finish_settles (l : Loc) : Settles (finish l) := by
  have deriveMonth : ∀ tm, Settles (deriveMonth tm) := fun tm =>
    (monthSearch_settles _ _ _ _).bind fun _ =>
      Settles.ite ((monthStart_settles _ _).bind fun _ => Settles.pure) Settles.pure
  have deriveMday : ∀ tm, Settles (deriveMday tm) := fun tm =>
    (monthStart_settles _ _).bind fun _ => Settles.pure
  have deriveYday : Settles (deriveYday l.flags l.day_offset l.week_offset
      (setYear l.century l.year l.tm)) := by
    unfold Strptime.deriveYday
    refine Settles.ite (Settles.ite ((monthStart_settles _ _).bind fun _ => Settles.pure) ?_) Settles.pure
    exact Settles.ite (Settles.ite Settles.pure (Settles.ite Settles.pure Settles.pure)) Settles.pure
  refine deriveYday.bind fun r => ?_
  rcases r with _ | ⟨tm, flags⟩
  · exact Settles.pure
  · refine Settles.bind ?_ fun _ => Settles.pure
    exact Settles.ite (Settles.ite Settles.pure (deriveMonth _) |>.bind fun _ =>
      (Settles.ite Settles.pure (deriveMday _)).bind fun _ => Settles.pure) Settles.pure

/-! ## The directives the loop reaches -/

/-- The directive characters the loop of `_strptime` hands to the `switch` when
it reads the format `fmt` from the point `pc`: a `%` goes to `label`, one `E` or
`O` goes back to it, a second one ends the directive. -/
def dispatched : Pc → List Char → List Char
  | _, [] => []
  | .top, c :: rest => if c = '%' then dispatched (.label false false) rest else dispatched .top rest
  | .label E O, c :: rest =>
    if c = 'E' ∨ c = 'O' then
      if E || O then dispatched .top rest else dispatched (.label (c = 'E') (c = 'O')) rest
    else c :: dispatched .top rest

example : dispatched .top "%EY-%OEm %Ex".toList = ['Y', 'x'] := by decide

variable {env : Env} {input : CStr}

/-- Every call of `_strptime` with the format `sub` returns, from any locals. -/
def Ends (env : Env) (input : CStr) (sub : CStr) : Prop :=
  ∀ l, ∃ fuel, scan fuel env input sub 0 .top l ≠ .error .fuel

/-- The formats the directives `ds` parse with all return. -/
def CallsEnd (env : Env) (input : CStr) (ds : List Char) : Prop :=
  ∀ d ∈ ds, ∀ sub set, nested env.langinfo d = some (sub, set) → Ends env input sub

/-- A step that settles, followed by a rest of the loop that returns. -/
theorem then_settles {fmt : CStr} {ptr : Nat} {s : Except Fault Step} (first : Settles s)
    (rest : ∀ l, ∃ fuel, scan fuel env input fmt ptr .top l ≠ .error .fuel) :
    ∃ fuel, (s >>= fun step => match step with
      | .next l => scan fuel env input fmt ptr .top l
      | .null tm gmt => Pure.pure ⟨none, tm, gmt⟩) ≠ .error .fuel := by
  rcases s with e | (l | ⟨tm, gmt⟩)
  · exact ⟨0, first.error⟩
  · exact rest l
  · exact ⟨0, nofun⟩

/-- A nested call that returns, followed by a rest of the loop that returns: the
two share the fuel, which more fuel leaves alike. -/
theorem nested_settles {fmt sub : CStr} {ptr : Nat} {l : Loc} (set : Flags → Flags)
    (inner : ∃ fuel, scan fuel env input sub 0 .top (Loc.init l.buf l.tm l.gmt) ≠ .error .fuel)
    (rest : ∀ l, ∃ fuel, scan fuel env input fmt ptr .top l ≠ .error .fuel) :
    ∃ fuel, ((fun r => resume r set l) <$> scan fuel env input sub 0 .top (Loc.init l.buf l.tm l.gmt) >>=
      fun step => match step with
        | .next l => scan fuel env input fmt ptr .top l
        | .null tm gmt => Pure.pure ⟨none, tm, gmt⟩) ≠ .error .fuel := by
  obtain ⟨F, settles⟩ := inner
  rcases ran : scan F env input sub 0 .top (Loc.init l.buf l.tm l.gmt) with e | r
  · exact ⟨F, by rw [ran]; exact (show Settles (Except.error e : Except Fault Ret) from ran ▸ settles).error⟩
  rcases step : resume r set l with l' | ⟨tm, gmt⟩
  · obtain ⟨G, next⟩ := rest l'
    have later : scan (F + G) env input fmt ptr .top l' = scan G env input fmt ptr .top l' := by
      rw [Nat.add_comm]
      exact scan_add rfl next F
    refine ⟨F + G, ?_⟩
    rw [scan_add ran (ran ▸ settles) G]
    show (match resume r set l with
      | .next l => scan (F + G) env input fmt ptr .top l
      | .null tm gmt => Pure.pure ⟨none, tm, gmt⟩) ≠ .error .fuel
    rw [step]
    show scan (F + G) env input fmt ptr .top l' ≠ .error .fuel
    rw [later]
    exact next
  · exact ⟨F, by rw [ran]; show (match resume r set l with | .next l => _ | .null tm gmt => _) ≠ _; rw [step]; exact nofun⟩

/-- The loop returns from any point of a format whose directives from there on
parse only with formats that return. -/
theorem scan_ends {fmt : CStr} : ∀ (xs : List Char) {p : Nat} {pc : Pc}, fmt.chars.drop p = xs →
    CallsEnd env input (dispatched pc xs) → ∀ l, ∃ fuel, scan fuel env input fmt p pc l ≠ .error .fuel
  | [], p, pc, at_end, _, l => by
    have read : fmt.charAt p = .ok '\x00' ∨ fmt.charAt p = .error .overread := by
      unfold CStr.charAt
      rw [at_end]
      by_cases ended : p = fmt.chars.length <;> simp [ended]
    refine ⟨1, ?_⟩
    rcases read with read | read <;> cases pc
    · rw [scan_end read]
      exact finish_settles l
    · rw [scan.eq_3, read]
      exact nofun
    · rw [scan.eq_2, read]
      exact nofun
    · rw [scan.eq_3, read]
      exact nofun
  | c :: rest, p, pc, at_p, calls, l => by
    have read := CStr.charAt_of_drop at_p
    have next := CStr.drop_succ_of_drop at_p
    have nonNul : c ≠ '\x00' := fun nul =>
      fmt.no_nul (nul ▸ List.mem_of_mem_drop (by rw [at_p]; exact List.mem_cons_self _ _))
    cases pc with
    | top =>
      by_cases percent : c = '%'
      · obtain ⟨F, ok⟩ := scan_ends rest next (by simpa [dispatched, percent] using calls) l
        exact ⟨F + 1, by rw [scan_percent (percent ▸ read)]; exact ok⟩
      · obtain ⟨F, ok⟩ := then_settles (literal_settles input l c)
          (scan_ends rest next (by simpa [dispatched, percent] using calls))
        refine ⟨F + 1, ?_⟩
        rw [scan.eq_2, read]
        simp only [ok_bind, nonNul, percent, if_false, ne_eq, not_false_eq_true, if_true]
        exact ok
    | label E O =>
      by_cases modifier : c = 'E' ∨ c = 'O'
      · by_cases again : (E || O) = true
        · obtain ⟨F, ok⟩ := scan_ends rest next (by simpa [dispatched, modifier, again] using calls) l
          exact ⟨F + 1, by rw [scan.eq_3, read]; simp only [ok_bind, modifier, again, if_true]; exact ok⟩
        · obtain ⟨F, ok⟩ := scan_ends rest next (by simpa [dispatched, modifier, again] using calls) l
          refine ⟨F + 1, ?_⟩
          rw [scan.eq_3, read]
          simp only [ok_bind, modifier, again, if_true, if_false, Bool.false_eq_true]
          exact ok
      · have called : CallsEnd env input (c :: dispatched .top rest) := by
          simpa [dispatched, modifier] using calls
        have ends := scan_ends rest next fun d mem => called d (List.mem_cons_of_mem _ mem)
        rcases format : nested env.langinfo c with _ | ⟨sub, set⟩
        · obtain ⟨F, ok⟩ := then_settles (convert_settles env input l c O) ends
          exact ⟨F + 1, by rw [scan.eq_3, read]; simp only [ok_bind, modifier, if_false, format]; exact ok⟩
        · obtain ⟨F, ok⟩ := nested_settles set
            (called c (List.mem_cons_self _ _) sub set format (Loc.init l.buf l.tm l.gmt)) ends
          exact ⟨F + 1, by rw [scan.eq_3, read]; simp only [ok_bind, modifier, if_false, format]; exact ok⟩

/-! ## Fixed formats, the locale's formats, any format -/

/-- The formats of the locale that `%c %x %X %r %+` parse with. -/
def localeFormats (lang : Langinfo) : List CStr :=
  [lang.d_t_fmt, lang.d_fmt, lang.t_fmt, lang.t_fmt_ampm] ++ lang.date_fmt.toList

/-- A format whose directives include none that parses with another format. -/
def Plain (sub : CStr) : Prop :=
  ∀ d ∈ dispatched .top sub.chars, d ∉ ['+', 'c', 'D', 'F', 'R', 'r', 'T', 'X', 'x']

instance (sub : CStr) : Decidable (Plain sub) :=
  inferInstanceAs (Decidable (∀ d ∈ dispatched .top sub.chars, d ∉ ['+', 'c', 'D', 'F', 'R', 'r', 'T', 'X', 'x']))

/-- A format whose directives include none that parses with a format of the
locale. -/
def CallsNoLocale (sub : CStr) : Prop := ∀ d ∈ dispatched .top sub.chars, d ∉ ['+', 'c', 'r', 'X', 'x']

instance (sub : CStr) : Decidable (CallsNoLocale sub) :=
  inferInstanceAs (Decidable (∀ d ∈ dispatched .top sub.chars, d ∉ ['+', 'c', 'r', 'X', 'x']))

/-- The format a directive parses with: one of the locale's or the fixed
`%+` format for the directives that read the locale, a plain one for the
others. -/
theorem nested_format {lang : Langinfo} {d : Char} {sub : CStr} {set : Flags → Flags}
    (format : nested lang d = some (sub, set)) :
    (sub ∈ localeFormats lang ∨ Plain sub) ∧ (d ∉ ['+', 'c', 'r', 'X', 'x'] → Plain sub) := by
  have mine : ∀ {f}, f ∈ localeFormats lang → d ∈ ['+', 'c', 'r', 'X', 'x'] →
      (f ∈ localeFormats lang ∨ Plain f) ∧ (d ∉ ['+', 'c', 'r', 'X', 'x'] → Plain f) :=
    fun mem calls => ⟨.inl mem, fun other => absurd calls other⟩
  have fixed : ∀ {f}, Plain f → (f ∈ localeFormats lang ∨ Plain f) ∧
      (d ∉ ['+', 'c', 'r', 'X', 'x'] → Plain f) := fun plain => ⟨.inr plain, fun _ => plain⟩
  unfold nested at format
  split at format <;> simp only [Option.some.injEq, Prod.mk.injEq, reduceCtorEq] at format <;>
    obtain ⟨rfl, -⟩ := format
  · rcases here : lang.date_fmt with _ | f
    · exact fixed (by decide)
    · exact mine (by simp [localeFormats, here]) (by decide)
  · exact mine (by simp [localeFormats]) (by decide)
  · exact fixed (by decide)
  · exact fixed (by decide)
  · exact fixed (by decide)
  · exact mine (by simp [localeFormats]) (by decide)
  · exact fixed (by decide)
  · exact mine (by simp [localeFormats]) (by decide)
  · exact mine (by simp [localeFormats]) (by decide)

theorem nested_none {lang : Langinfo} {d : Char} (plain : d ∉ ['+', 'c', 'D', 'F', 'R', 'r', 'T', 'X', 'x']) :
    nested lang d = none := by
  unfold nested
  split <;> simp_all

/-- Every call with a plain format returns. -/
theorem Plain.ends {sub : CStr} (plain : Plain sub) : Ends env input sub :=
  scan_ends _ (List.drop_zero _) fun d mem _ _ format => by
    rw [nested_none (plain d mem)] at format
    cases format

/-- Every call with a format that reaches no format of the locale returns. -/
theorem CallsNoLocale.ends {sub : CStr} (own : CallsNoLocale sub) : Ends env input sub :=
  scan_ends _ (List.drop_zero _) fun d mem _ _ format => ((nested_format format).2 (own d mem)).ends

/-- Where the formats of the locale reach no format of the locale, every call of
`_strptime` returns, whatever the format and the input: some fuel gives a
result other than running out. -/
theorem strptime_returns (env : Env) (locale : ∀ f ∈ localeFormats env.langinfo, CallsNoLocale f)
    (input : CStr) (buf : Nat) (fmt : CStr) (tm : Tm) (gmt : Bool) :
    ∃ fuel, _strptime fuel env input buf fmt tm gmt ≠ .error .fuel :=
  scan_ends _ (List.drop_zero _) (fun _ _ _ _ format => by
    rcases (nested_format format).1 with mine | plain
    exacts [(locale _ mine).ends, plain.ends]) _

/-- The POSIX locale. -/
theorem strptime_returns_posix :
    (∀ f ∈ localeFormats Env.posix.langinfo, CallsNoLocale f) ∧
      ∃ fuel, _strptime fuel Env.posix (lit "Tue" (by decide)) 0 (lit "%c" (by decide))
        ⟨0, 0, 0, 0, 0, 0, 0, 0, 0⟩ false ≠ .error .fuel :=
  have locale : ∀ f ∈ localeFormats Env.posix.langinfo, CallsNoLocale f := by decide
  ⟨locale, strptime_returns Env.posix locale _ _ _ _ _⟩

/-! ## A format of the locale that calls itself -/

/-- Where a directive's format starts with that same directive, as in a locale
whose `D_T_FMT` is `"%c"`, the call reads the directive again before anything
else: `buf = _strptime(buf, nl_langinfo(D_T_FMT), tm, GMTp)` recurses without
end, and no fuel is enough. -/
theorem scan_self_call_runs_out {d : Char} {sub : CStr} {set : Flags → Flags}
    (format : nested env.langinfo d = some (sub, set)) {rest : List Char}
    (starts : sub.chars = '%' :: d :: rest) (fuel : Nat) :
    ∀ {fmt : CStr} {p : Nat} {post : List Char}, fmt.chars.drop p = '%' :: d :: post →
      ∀ l, scan fuel env input fmt p .top l = .error .fuel := by
  have modifier : ¬(d = 'E' ∨ d = 'O') := by
    rintro (rfl | rfl) <;> rw [nested_none (by decide)] at format <;> cases format
  induction fuel using Nat.strongRecOn with
  | ind fuel ih =>
    intro fmt p post at_p l
    have at_d := CStr.drop_succ_of_drop at_p
    rcases fuel with _ | _ | n
    · rfl
    · rw [scan_percent (CStr.charAt_of_drop at_p)]
      rfl
    · have inner := ih n (by omega) (show sub.chars.drop 0 = _ from starts) (Loc.init l.buf l.tm l.gmt)
      rw [scan_percent (CStr.charAt_of_drop at_p), scan.eq_3, CStr.charAt_of_drop at_d]
      simp only [ok_bind, modifier, if_false, format, inner]
      rfl

/-- A locale whose `D_T_FMT` is `"%c"`. -/
def Env.selfCalling : Env :=
  { Env.blank with langinfo := { Env.blank.langinfo with d_t_fmt := lit "%c" (by decide) } }

/-- `"%c"` in that locale, with as much fuel as one likes. -/
theorem scan_self_call_runs_out_selfCalling :
    nested Env.selfCalling.langinfo 'c' = some (lit "%c" (by decide), Flags.setDate) ∧
      (lit "%c" (by decide)).chars = ['%', 'c'] ∧
      _strptime 1000 Env.selfCalling CStr.empty 0 (lit "%c" (by decide)) ⟨0, 0, 0, 0, 0, 0, 0, 0, 0⟩ false =
        .error .fuel :=
  ⟨rfl, rfl, @scan_self_call_runs_out Env.selfCalling CStr.empty 'c' (lit "%c" (by decide)) Flags.setDate rfl [] rfl
    1000 (lit "%c" (by decide)) 0 [] rfl _⟩

end Strptime
end Userland
