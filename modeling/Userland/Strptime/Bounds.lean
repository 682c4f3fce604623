import Userland.Strptime.Parse

/-!
# `_strptime` stays inside its strings

Every read `_strptime` makes of its input or of a format, in its own loop, in the
calls nested through the formats `nl_langinfo` returns and in the library calls
it makes, is at or before that string's terminator; a position it returns lies
between where it started and the input's terminator.  This holds for every
format, input, `tm` and locale, and for every amount of fuel, so whenever a call
returns.

Each directive is shown to keep the input position between where it started and
the terminator (`Step.Within`); the loop, by induction on the fuel, keeps both
the input position and the format position within their strings.
-/

namespace Userland
namespace Strptime

/-- A directive goes on with its input position between `buf` and the
input's terminator. -/
def Step.Within (input : CStr) (buf : Nat) : Step → Prop
  | .next l => buf ≤ l.buf ∧ l.buf ≤ input.chars.length
  | .null _ _ => True

variable {input : CStr} {l : Loc}

theorem number_safe (input : CStr) (len : Nat) {buf : Nat} (within : buf ≤ input.chars.length) :
    Safe (number input len buf) fun r => ∀ p ∈ r, buf ≤ p.2 ∧ p.2 ≤ input.chars.length := by
  refine (input.charAt_safe within).bind fun c _ => ?_
  split
  · exact (input.digits_safe len within).bind fun r bounds p mem => by
      obtain rfl := Option.mem_some_iff.mp mem
      exact bounds
  · exact fun p mem => by cases mem

theorem convPercent_safe (within : l.buf ≤ input.chars.length) :
    Safe (convPercent input l) (Step.Within input l.buf) := by
  refine (input.charAt_safe within).bind fun c read => ?_
  show Step.Within _ _ (if c ≠ '%' then l.null else _)
  split
  · trivial
  · next same => exact ⟨Nat.le_succ _, read.resolve_left fun nul => by simp_all⟩

theorem convCentury_safe (within : l.buf ≤ input.chars.length) :
    Safe (convCentury input l) (Step.Within input l.buf) := by
  refine (number_safe input 2 within).bind fun r bounds => ?_
  rcases r with _ | ⟨i, e⟩
  · trivial
  · exact bounds _ rfl

theorem convYday_safe (within : l.buf ≤ input.chars.length) :
    Safe (convYday input l) (Step.Within input l.buf) := by
  refine (number_safe input 3 within).bind fun r bounds => ?_
  rcases r with _ | ⟨i, e⟩
  · trivial
  · dsimp only
    split
    · trivial
    · exact bounds _ rfl

theorem convMinSec_safe (c : Char) (within : l.buf ≤ input.chars.length) :
    Safe (convMinSec c input l) (Step.Within input l.buf) := by
  refine (input.charAt_safe within).bind fun b _ => ?_
  split
  · exact ⟨le_rfl, within⟩
  · refine (number_safe input 2 within).bind fun r bounds => ?_
    rcases r with _ | ⟨i, e⟩
    · trivial
    · dsimp only
      split <;> split
      all_goals first | trivial | exact bounds _ rfl

theorem hourStart_safe (c : Char) {buf : Nat} (within : buf ≤ input.chars.length) :
    Safe (hourStart c input buf) fun r => buf ≤ r.1 ∧ r.1 ≤ input.chars.length := by
  unfold hourStart
  split
  · refine (input.charAt_safe within).bind fun b read => ?_
    show buf ≤ (if isblank b then (buf + 1, 1) else (buf, 2)).1 ∧ _
    split
    · next blank => exact ⟨Nat.le_succ _, read.resolve_left fun nul => by simp_all [isblank]⟩
    · exact ⟨le_rfl, within⟩
  · exact ⟨le_rfl, within⟩

theorem convHour_safe (c : Char) (within : l.buf ≤ input.chars.length) :
    Safe (convHour c input l) (Step.Within input l.buf) := by
  refine (hourStart_safe c within).bind fun ⟨buf, len⟩ ⟨lo, hi⟩ => ?_
  refine (number_safe input len hi).bind fun r bounds => ?_
  rcases r with _ | ⟨i, e⟩
  · trivial
  · dsimp only
    split_ifs
    all_goals first | trivial | exact ⟨lo.trans (bounds _ rfl).1, (bounds _ rfl).2⟩

theorem convAmPm_safe (lang : Langinfo) (within : l.buf ≤ input.chars.length) :
    Safe (convAmPm lang input l) (Step.Within input l.buf) := by
  unfold convAmPm
  split
  · trivial
  · refine (input.strncasecmp_safe lang.am_str.no_nul within).bind fun am fits => ?_
    split
    · next same => exact ⟨Nat.le_add_right _ _, fits same⟩
    · refine (input.strncasecmp_safe lang.pm_str.no_nul within).bind fun pm fits => ?_
      split
      · next same => exact ⟨Nat.le_add_right _ _, fits same⟩
      · trivial

theorem findName_safe {buf : Nat} (within : buf ≤ input.chars.length) :
    ∀ names, Safe (findName input buf names) fun r => ∀ p ∈ r, buf + p.2 ≤ input.chars.length
  | [] => fun p mem => by cases mem
  | (_, ex) :: names => (input.strncasecmp_safe ex.no_nul within).bind fun same fits => by
    split
    · exact fun p mem => by
        obtain rfl := Option.mem_some_iff.mp mem
        exact fits ‹_›
    · exact findName_safe within names

theorem convWeekday_safe (lang : Langinfo) (within : l.buf ≤ input.chars.length) :
    Safe (convWeekday lang input l) (Step.Within input l.buf) := by
  refine (findName_safe within _).bind fun r fits => ?_
  rcases r with _ | ⟨i, len⟩
  · trivial
  · exact ⟨Nat.le_add_right _ _, fits _ rfl⟩

theorem convWeek_safe (c : Char) (within : l.buf ≤ input.chars.length) :
    Safe (convWeek c input l) (Step.Within input l.buf) := by
  refine (number_safe input 2 within).bind fun r bounds => ?_
  rcases r with _ | ⟨i, e⟩
  · trivial
  · dsimp only
    split
    · trivial
    · exact bounds _ rfl

theorem convWdayNumber_safe (c : Char) (within : l.buf ≤ input.chars.length) :
    Safe (convWdayNumber c input l) (Step.Within input l.buf) := by
  refine (input.charAt_safe within).bind fun b read => ?_
  split
  · trivial
  · next digit =>
    dsimp only
    split
    · trivial
    · exact ⟨Nat.le_succ _, read.resolve_left fun nul => by simp_all⟩

theorem skipBlankE_safe {buf : Nat} (within : buf ≤ input.chars.length) :
    Safe (skipBlankE input buf) fun e => buf ≤ e ∧ e ≤ input.chars.length := by
  refine (input.charAt_safe within).bind fun b read => ?_
  show buf ≤ (if b ≠ '\x00' ∧ isspace b then buf + 1 else buf) ∧ _
  split
  · next blank => exact ⟨Nat.le_succ _, read.resolve_left blank.1⟩
  · exact ⟨le_rfl, within⟩

theorem convMday_safe {buf : Nat} (lo : l.buf ≤ buf) (within : buf ≤ input.chars.length) :
    Safe (convMday input buf l) (Step.Within input l.buf) := by
  refine (number_safe input 2 within).bind fun r bounds => ?_
  rcases r with _ | ⟨i, e⟩
  · trivial
  · dsimp only
    split
    · trivial
    · exact ⟨lo.trans (bounds _ rfl).1, (bounds _ rfl).2⟩

theorem findMonth_safe (lang : Langinfo) (c : Char) (O : Bool) {buf : Nat}
    (within : buf ≤ input.chars.length) :
    Safe (findMonth lang c O input buf) fun r => ∀ p ∈ r, buf + p.2 ≤ input.chars.length := by
  refine (findName_safe within _).bind fun r fits => ?_
  rcases r with _ | p
  · dsimp only
    split
    · exact fun p mem => by cases mem
    · exact findName_safe within _
  · exact fits

theorem convMonthName_safe (lang : Langinfo) (c : Char) (O : Bool)
    (within : l.buf ≤ input.chars.length) :
    Safe (convMonthName lang c O input l) (Step.Within input l.buf) := by
  refine (findMonth_safe lang c O within).bind fun r fits => ?_
  rcases r with _ | ⟨i, len⟩
  · trivial
  · exact ⟨Nat.le_add_right _ _, fits _ rfl⟩

theorem convMonth_safe (within : l.buf ≤ input.chars.length) :
    Safe (convMonth input l) (Step.Within input l.buf) := by
  refine (number_safe input 2 within).bind fun r bounds => ?_
  rcases r with _ | ⟨i, e⟩
  · trivial
  · dsimp only
    split
    · trivial
    · exact bounds _ rfl

theorem convEpoch_safe (env : Env) (within : l.buf ≤ input.chars.length) :
    Safe (convEpoch env input l) (Step.Within input l.buf) := by
  refine (input.strtol_safe within).bind fun ⟨n, cp, erange⟩ bounds => ?_
  dsimp only
  split
  · trivial
  · split
    · exact bounds
    · trivial

theorem convYear_safe (c : Char) (within : l.buf ≤ input.chars.length) :
    Safe (convYear c input l) (Step.Within input l.buf) := by
  refine (input.charAt_safe within).bind fun b _ => ?_
  split
  · exact ⟨le_rfl, within⟩
  · refine (number_safe input _ within).bind fun r bounds => ?_
    rcases r with _ | ⟨i, e⟩
    · trivial
    · exact bounds _ rfl

theorem convZone_safe (env : Env) (within : l.buf ≤ input.chars.length) :
    Safe (convZone env input l) (Step.Within input l.buf) := by
  refine (input.span_safe rfl within).bind fun cp bounds => ?_
  split
  · exact ⟨le_rfl, within⟩
  · dsimp only
    split
    · exact bounds
    · split
      · exact bounds
      · split
        · exact bounds
        · trivial

theorem zoneDigits_safe : ∀ (len : Nat) {i buf : Nat}, buf ≤ input.chars.length →
    Safe (zoneDigits input len i buf) fun r => ∀ p ∈ r, buf ≤ p.2 ∧ p.2 ≤ input.chars.length
  | 0, _, _, within => fun p mem => by
    obtain rfl := Option.mem_some_iff.mp mem
    exact ⟨le_rfl, within⟩
  | len + 1, _, buf, within => (input.charAt_safe within).bind fun b read => by
    split
    · next digit =>
      have before : buf < input.chars.length := read.resolve_left fun nul => by simp_all
      exact (zoneDigits_safe len before).mono fun r later p mem =>
        ⟨Nat.le_of_succ_le (later p mem).1, (later p mem).2⟩
    · split
      · exact fun p mem => by
          obtain rfl := Option.mem_some_iff.mp mem
          exact ⟨le_rfl, within⟩
      · exact fun p mem => by cases mem

theorem convOffset_safe (within : l.buf ≤ input.chars.length) :
    Safe (convOffset input l) (Step.Within input l.buf) := by
  refine (input.charAt_safe within).bind fun b read => ?_
  split
  · trivial
  · next sign =>
    have before : l.buf < input.chars.length := read.resolve_left fun nul => by simp_all
    refine (zoneDigits_safe 4 before).bind fun r bounds => ?_
    rcases r with _ | ⟨i, e⟩
    · trivial
    · dsimp only
      split_ifs
      all_goals first | trivial | exact ⟨Nat.le_of_succ_le (bounds _ rfl).1, (bounds _ rfl).2⟩

theorem convSpace_safe (within : l.buf ≤ input.chars.length) :
    Safe (convSpace input l) (Step.Within input l.buf) :=
  (input.span_safe rfl within).bind fun _ bounds => bounds

theorem convert_safe (env : Env) (c : Char) (O : Bool) (within : l.buf ≤ input.chars.length) :
    Safe (convert env input c O l) (Step.Within input l.buf) := by
  unfold convert
  split
  · exact convPercent_safe within
  · exact convCentury_safe within
  · exact convYday_safe within
  · exact convMinSec_safe _ within
  · exact convMinSec_safe _ within
  · exact convHour_safe _ within
  · exact convHour_safe _ within
  · exact convHour_safe _ within
  · exact convHour_safe _ within
  · exact convAmPm_safe _ within
  · exact convWeekday_safe _ within
  · exact convWeekday_safe _ within
  · exact convWeek_safe _ within
  · exact convWeek_safe _ within
  · exact convWdayNumber_safe _ within
  · exact convWdayNumber_safe _ within
  · exact (skipBlankE_safe within).bind fun _ ⟨lo, hi⟩ => convMday_safe lo hi
  · exact convMday_safe le_rfl within
  · exact convMonthName_safe _ _ _ within
  · exact convMonthName_safe _ _ _ within
  · exact convMonthName_safe _ _ _ within
  · exact convMonth_safe within
  · exact convEpoch_safe _ within
  · exact convYear_safe _ within
  · exact convYear_safe _ within
  · exact convZone_safe _ within
  · exact convOffset_safe within
  · exact convSpace_safe within
  · exact convSpace_safe within
  · trivial

theorem literal_safe {c : Char} (nonNul : c ≠ '\x00') (within : l.buf ≤ input.chars.length) :
    Safe (literal input c l) (Step.Within input l.buf) := by
  unfold literal
  split
  · exact (input.span_safe rfl within).bind fun _ bounds => bounds
  · refine (input.charAt_safe within).bind fun b read => ?_
    show Step.Within _ _ (if c ≠ b then l.null else _)
    split
    · trivial
    · next same => exact ⟨Nat.le_succ _, read.resolve_left fun nul => nonNul (by simp_all)⟩

theorem Safe.map {α β : Type} {r : Except Fault α} {P : α → Prop} {Q : β → Prop} {f : α → β}
    (safe : Safe r P) (maps : ∀ a, P a → Q (f a)) : Safe (f <$> r) Q := by
  cases r with
  | error e => exact safe
  | ok a => exact maps a safe

theorem resume_within {r : Ret} (set : Flags → Flags)
    (bounds : ∀ p, r.buf = some p → l.buf ≤ p ∧ p ≤ input.chars.length) :
    Step.Within input l.buf (resume r set l) := by
  unfold resume
  split
  · trivial
  · next p same => exact bounds p same

/-- The loop reads its format and its input only up to their terminators, and a
position it returns lies between where it started and the input's terminator. -/
theorem scan_safe (env : Env) (input : CStr) : ∀ (fuel : Nat) (fmt : CStr) (ptr : Nat) (pc : Pc)
    (l : Loc), ptr ≤ fmt.chars.length → l.buf ≤ input.chars.length →
    Safe (scan fuel env input fmt ptr pc l)
      fun r => ∀ p, r.buf = some p → l.buf ≤ p ∧ p ≤ input.chars.length
  | 0, _, _, _, _, _, _ => Safe.error Fault.noConfusion
  | fuel + 1, fmt, ptr, .top, l, inFmt, inInput => by
    refine (fmt.charAt_safe inFmt).bind fun c read => ?_
    split
    · exact (finish_safe l).mono fun r same p ret => by rw [same p ret]; exact ⟨le_rfl, inInput⟩
    · next nul =>
      have next : ptr + 1 ≤ fmt.chars.length := read.resolve_left nul
      split
      · refine (literal_safe nul inInput).bind fun step within => ?_
        rcases step with l' | ⟨tm, gmt⟩
        · exact (scan_safe env input fuel fmt (ptr + 1) .top l' next within.2).mono
            fun r later p ret => ⟨within.1.trans (later p ret).1, (later p ret).2⟩
        · exact fun p ret => by cases ret
      · exact scan_safe env input fuel fmt (ptr + 1) _ l next inInput
  | fuel + 1, fmt, ptr, .label E O, l, inFmt, inInput => by
    refine (fmt.charAt_safe inFmt).bind fun c read => ?_
    split
    · next modifier =>
      have next : ptr + 1 ≤ fmt.chars.length :=
        read.resolve_left (by rintro rfl; simp at modifier)
      split
      · exact scan_safe env input fuel fmt (ptr + 1) _ l next inInput
      · exact scan_safe env input fuel fmt (ptr + 1) _ l next inInput
    · by_cases nul : c = '\x00'
      · subst nul
        exact fun p ret => by cases ret
      have next : ptr + 1 ≤ fmt.chars.length := read.resolve_left nul
      refine Safe.bind (P := Step.Within input l.buf) ?_ fun step within => ?_
      · split
        · exact (scan_safe env input fuel _ 0 .top (Loc.init l.buf l.tm l.gmt) (Nat.zero_le _)
            inInput).map fun r bounds => resume_within _ bounds
        · exact convert_safe env c O inInput
      · rcases step with l' | ⟨tm, gmt⟩
        · exact (scan_safe env input fuel fmt (ptr + 1) .top l' next within.2).mono
            fun r later p ret => ⟨within.1.trans (later p ret).1, (later p ret).2⟩
        · exact fun p ret => by cases ret

/-- Whenever `_strptime` returns, it has read no character of its input or of a
format past that string's terminator, and a position it returns lies between
where it started and the input's terminator. -/
theorem strptime_stays_within_strings (fuel : Nat) (env : Env) (input : CStr) (buf : Nat)
    (fmt : CStr) (tm : Tm) (gmt : Bool) (start : buf ≤ input.chars.length) :
    _strptime fuel env input buf fmt tm gmt ≠ .error .overread ∧
      ∀ r p, _strptime fuel env input buf fmt tm gmt = .ok r → r.buf = some p →
        buf ≤ p ∧ p ≤ input.chars.length := by
  have safe := scan_safe env input fuel fmt 0 .top (Loc.init buf tm gmt) (Nat.zero_le _) start
  exact ⟨safe.ne_overread, fun r p ran ret => safe.post ran p ret⟩

/-- A format that ends inside a directive, on an input that ends inside the
field the directive reads. -/
theorem strptime_stays_within_trailing_percent :
    0 ≤ (lit "20" (by decide)).chars.length ∧
      (_strptime 4 Env.blank (lit "20" (by decide)) 0 (lit "%Y%" (by decide)) ⟨0, 0, 0, 0, 0, 0, 0, 0, 0⟩
          false ≠ .error .overread ∧
        ∀ r p, _strptime 4 Env.blank (lit "20" (by decide)) 0 (lit "%Y%" (by decide))
            ⟨0, 0, 0, 0, 0, 0, 0, 0, 0⟩ false = .ok r →
          r.buf = some p → 0 ≤ p ∧ p ≤ (lit "20" (by decide)).chars.length) :=
  ⟨Nat.zero_le _, strptime_stays_within_strings 4 Env.blank _ 0 _ _ false (Nat.zero_le _)⟩

end Strptime
end Userland
