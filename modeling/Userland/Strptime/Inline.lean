import Userland.Strptime.Run

/-!
# Nested formats of time directives

`%R` and `%T`, and `%X` and `%r` in a locale whose `T_FMT` and `T_FMT_AMPM` are
like the POSIX ones, parse the input with another format by a nested call of
`_strptime` and set no flag after it.  When that format is made of literal
characters and directives that read only the time of day, the zone and the
position, the nested call behaves exactly as if the format were written in
place of the directive: at any point of the loop, with any locals, the two have
the same outcomes.

On the way: the loop reads the format only from its position on, and a result
it reaches stays the same with more fuel, so outcomes can be compared without a
fuel figure.
-/

namespace Userland
namespace Strptime

/-! ## The format from the position on -/

theorem CStr.charAt_congr {s t : CStr} {p q : Nat} (same : s.chars.drop p = t.chars.drop q)
    (within : p ≤ s.chars.length ↔ q ≤ t.chars.length) : s.charAt p = t.charAt q := by
  unfold CStr.charAt
  rw [same]
  split
  · rfl
  · next ended =>
    rw [← same, List.drop_eq_nil_iff] at ended
    have ended' := ended
    rw [← List.drop_eq_nil_iff, same, List.drop_eq_nil_iff] at ended'
    by_cases at_end : p = s.chars.length
    · rw [if_pos at_end, if_pos (by omega)]
    · rw [if_neg at_end, if_neg (by omega)]

theorem drop_succ_congr {s t : List Char} {p q : Nat} (same : s.drop p = t.drop q) :
    s.drop (p + 1) = t.drop (q + 1) ∧ (p + 1 ≤ s.length ↔ q + 1 ≤ t.length) := by
  refine ⟨by rw [← List.drop_drop, same, List.drop_drop], ?_⟩
  have : s.drop p = [] ↔ t.drop q = [] := by rw [same]
  rw [List.drop_eq_nil_iff, List.drop_eq_nil_iff] at this
  omega

variable {env : Env} {input : CStr}

/-- The loop reads its format only from its position on. -/
theorem scan_congr : ∀ (fuel : Nat) {fmt fmt' : CStr} {p p' : Nat},
    fmt.chars.drop p = fmt'.chars.drop p' → (p ≤ fmt.chars.length ↔ p' ≤ fmt'.chars.length) →
    ∀ pc l, scan fuel env input fmt p pc l = scan fuel env input fmt' p' pc l
  | 0, _, _, _, _, _, _, _, _ => rfl
  | fuel + 1, _, _, _, _, same, within, pc, l => by
    have next := scan_congr fuel (drop_succ_congr same).1 (drop_succ_congr same).2
    cases pc <;> simp only [scan, CStr.charAt_congr same within, next]

/-! ## Fuel -/

/-- A result the loop reaches, other than running out of fuel, stays the same
with one more round. -/
theorem scan_succ : ∀ (fuel : Nat) {fmt : CStr} {ptr : Nat} {pc : Pc} {l : Loc} {o : Except Fault Ret},
    scan fuel env input fmt ptr pc l = o → o ≠ .error .fuel → scan (fuel + 1) env input fmt ptr pc l = o
  | 0, _, _, _, _, _, ran, settles => absurd ran.symm settles
  | fuel + 1, fmt, ptr, .top, l, o, ran, settles => by
    rw [scan.eq_2] at ran
    rw [scan.eq_2]
    rcases read : fmt.charAt ptr with e | c
    · rw [read] at ran; exact ran
    simp only [read, ok_bind] at ran ⊢
    split_ifs at ran ⊢
    · exact ran
    · rcases step : literal input c l with e | (l' | ⟨tm, gmt⟩)
      · rw [step] at ran; exact ran
      · simp only [step, ok_bind] at ran ⊢
        exact scan_succ fuel ran settles
      · rw [step] at ran; exact ran
    · exact scan_succ fuel ran settles
  | fuel + 1, fmt, ptr, .label E O, l, o, ran, settles => by
    rw [scan.eq_3] at ran
    rw [scan.eq_3]
    rcases read : fmt.charAt ptr with e | c
    · rw [read] at ran; exact ran
    simp only [read, ok_bind] at ran ⊢
    split_ifs at ran ⊢
    · exact scan_succ fuel ran settles
    · exact scan_succ fuel ran settles
    rcases format : nested env.langinfo c with _ | ⟨sub, set⟩ <;> simp only [format] at ran ⊢
    · rcases step : convert env input c O l with e | (l' | ⟨tm, gmt⟩)
      · rw [step] at ran; exact ran
      · simp only [step, ok_bind] at ran ⊢
        exact scan_succ fuel ran settles
      · rw [step] at ran; exact ran
    rcases inner : scan fuel env input sub 0 .top (Loc.init l.buf l.tm l.gmt) with e | r
    · rw [inner] at ran
      have failed : Except.error e = o := ran
      rw [scan_succ fuel inner fun same => settles (failed ▸ same ▸ rfl)]
      exact failed
    rw [scan_succ fuel inner nofun]
    rw [inner] at ran
    have resumed : (fun r => resume r set l) <$> (Except.ok r : Except Fault Ret) = .ok (resume r set l) := rfl
    rw [resumed, ok_bind] at ran ⊢
    rcases step : resume r set l with l' | ⟨tm, gmt⟩
    · rw [step] at ran; exact scan_succ fuel ran settles
    · rw [step] at ran; exact ran


/-! ## Directives that read only the time -/

/-- The locals `l` with the position, `tm` and `GMTp` of `m`. -/
def Loc.rebase (l m : Loc) : Loc := { l with buf := m.buf, tm := m.tm, gmt := m.gmt }

/-- A step taken from other locals, moved onto the flags, the year and the week
of `l`. -/
def Step.rebase (l : Loc) : Step → Step
  | .next m => .next (l.rebase m)
  | .null tm gmt => .null tm gmt

@[simp] theorem Loc.init_tm (buf : Nat) (tm : Tm) (gmt : Bool) : (Loc.init buf tm gmt).tm = tm := rfl

@[simp] theorem Loc.init_gmt (buf : Nat) (tm : Tm) (gmt : Bool) : (Loc.init buf tm gmt).gmt = gmt := rfl

/-- The directives that read the input only into the time of day, the zone and
the position: `%% %H %I %k %l %M %S %p %n %t %Z %z`. -/
def timeDirective (c : Char) : Bool := c ∈ ['%', 'H', 'I', 'k', 'l', 'M', 'S', 'p', 'n', 't', 'Z', 'z']

/-- A format of literal characters and time directives, with no modifier. -/
def timeOnly : List Char → Bool
  | [] => true
  | '%' :: d :: rest => timeDirective d && timeOnly rest
  | ['%'] => false
  | _ :: rest => timeOnly rest

example : timeOnly "%I:%M:%S %p".toList = true := by decide

section Rebase

variable {l : Loc}

theorem convPercent_rebase : convPercent input l = Step.rebase l <$> convPercent input (Loc.init l.buf l.tm l.gmt) := by
  simp only [convPercent, Loc.init_buf]
  rcases input.charAt l.buf with e | c
  · rfl
  · simp only [ok_bind, map_pure, apply_ite (Step.rebase l)]; rfl

theorem convHour_rebase (c : Char) : convHour c input l = Step.rebase l <$> convHour c input (Loc.init l.buf l.tm l.gmt) := by
  simp only [convHour, Loc.init_buf]
  rcases hourStart c input l.buf with e | ⟨buf, len⟩
  · rfl
  simp only [ok_bind]
  rcases number input len buf with e | _ | ⟨i, buf⟩
  · rfl
  · rfl
  · simp only [ok_bind, apply_ite (Step.rebase l <$> ·)]; rfl

theorem convMinSec_rebase (c : Char) : convMinSec c input l = Step.rebase l <$> convMinSec c input (Loc.init l.buf l.tm l.gmt) := by
  simp only [convMinSec, Loc.init_buf]
  rcases input.charAt l.buf with e | b
  · rfl
  simp only [ok_bind, apply_ite (Step.rebase l <$> ·)]
  congr 1
  rcases number input 2 l.buf with e | _ | ⟨i, buf⟩
  · rfl
  · rfl
  · simp only [ok_bind, apply_ite (Step.rebase l <$> ·)]; rfl

theorem convAmPm_rebase (lang : Langinfo) : convAmPm lang input l = Step.rebase l <$> convAmPm lang input (Loc.init l.buf l.tm l.gmt) := by
  simp only [convAmPm, Loc.init_buf, Loc.init_tm, apply_ite (Step.rebase l <$> ·)]
  congr 1
  rcases input.strncasecmp l.buf lang.am_str.chars with e | _ | _
  · rfl
  · rcases input.strncasecmp l.buf lang.pm_str.chars with e | _ | _ <;> rfl
  · rfl

theorem convSpace_rebase : convSpace input l = Step.rebase l <$> convSpace input (Loc.init l.buf l.tm l.gmt) := by
  simp only [convSpace, Loc.init_buf]
  rcases input.span isspace l.buf with e | buf <;> rfl

theorem convZone_rebase (env : Env) : convZone env input l = Step.rebase l <$> convZone env input (Loc.init l.buf l.tm l.gmt) := by
  simp only [convZone, Loc.init_buf]
  rcases input.span _ l.buf with e | cp
  · rfl
  simp only [ok_bind, apply_ite (Step.rebase l <$> ·)]
  rfl

theorem convOffset_rebase : convOffset input l = Step.rebase l <$> convOffset input (Loc.init l.buf l.tm l.gmt) := by
  simp only [convOffset, Loc.init_buf]
  rcases input.charAt l.buf with e | b
  · rfl
  simp only [ok_bind, apply_ite (Step.rebase l <$> ·)]
  congr 1
  rcases zoneDigits input 4 0 (l.buf + 1) with e | _ | ⟨i, buf⟩
  · rfl
  · rfl
  · simp only [ok_bind, apply_ite (Step.rebase l <$> ·)]; rfl

theorem literal_rebase (c : Char) : literal input c l = Step.rebase l <$> literal input c (Loc.init l.buf l.tm l.gmt) := by
  simp only [literal, Loc.init_buf]
  split_ifs
  · rcases input.span _ l.buf with e | buf <;> rfl
  · rcases input.charAt l.buf with e | b
    · rfl
    · simp only [ok_bind, map_pure, apply_ite (Step.rebase l)]; rfl

theorem convert_rebase {c : Char} (time : timeDirective c = true) (O : Bool) (l : Loc) :
    convert env input c O l = Step.rebase l <$> convert env input c O (Loc.init l.buf l.tm l.gmt) := by
  simp only [timeDirective, List.mem_cons, List.mem_singleton, List.not_mem_nil, or_false, decide_eq_true_eq] at time
  rcases time with rfl | rfl | rfl | rfl | rfl | rfl | rfl | rfl | rfl | rfl | rfl | rfl
  · exact convPercent_rebase
  · exact convHour_rebase _
  · exact convHour_rebase _
  · exact convHour_rebase _
  · exact convHour_rebase _
  · exact convMinSec_rebase _
  · exact convMinSec_rebase _
  · exact convAmPm_rebase _
  · exact convSpace_rebase
  · exact convSpace_rebase
  · exact convZone_rebase _
  · exact convOffset_rebase

theorem timeOnly_cons_of_ne {c : Char} (plain : c ≠ '%') (rest : List Char) :
    timeOnly (c :: rest) = timeOnly rest := by
  cases rest <;> simp [timeOnly, plain]

theorem timeDirective_cases {d : Char} (time : timeDirective d = true) :
    (d ≠ 'E' ∧ d ≠ 'O') ∧ d ≠ '\x00' ∧ ∀ lang, nested lang d = none := by
  simp only [timeDirective, List.mem_cons, List.mem_singleton, List.not_mem_nil, or_false,
    decide_eq_true_eq] at time
  rcases time with rfl | rfl | rfl | rfl | rfl | rfl | rfl | rfl | rfl | rfl | rfl | rfl <;>
    exact ⟨by decide, by decide, fun _ => rfl⟩

theorem resume_rebase (r : Ret) (l m : Loc) : resume r id (l.rebase m) = resume r id l := by
  unfold resume; split <;> rfl

/-- A step from the starting locals keeps their flags, year and week. -/
theorem init_of_rebase {s : Except Fault Step} {b : Nat} {t : Tm} {g : Bool} {m : Loc}
    (natural : s = Step.rebase (Loc.init b t g) <$> s) (stepped : s = .ok (.next m)) :
    m = Loc.init m.buf m.tm m.gmt := by
  rw [stepped] at natural
  injection natural with natural
  injection natural with natural


end Rebase

/-! ## A nested format against the same format in place -/

/-- One step of a time-only format, taken in the loop from `l` and in a nested
call from the locals it starts with, then followed by the same rest. -/
theorem inline_step {s : Loc → Except Fault Step}
    (natural : ∀ l, s l = Step.rebase l <$> s (Loc.init l.buf l.tm l.gmt)) (l : Loc)
    {f g h : Step → Except Fault Ret} (null_f : ∀ tm gmt, f (.null tm gmt) = .ok ⟨none, tm, gmt⟩)
    (null_g : ∀ tm gmt, g (.null tm gmt) = .ok ⟨none, tm, gmt⟩)
    (null_h : ∀ tm gmt, h (.null tm gmt) = .ok ⟨none, tm, gmt⟩)
    (next : ∀ m, m = Loc.init m.buf m.tm m.gmt →
      f (.next (l.rebase m)) = (fun r => resume r id l) <$> g (.next m) >>= h) :
    s l >>= f = (fun r => resume r id l) <$> (s (Loc.init l.buf l.tm l.gmt) >>= g) >>= h := by
  rw [natural l]
  rcases step : s (Loc.init l.buf l.tm l.gmt) with e | (m | ⟨tm, gmt⟩)
  · rfl
  · exact next m (init_of_rebase (by simpa using natural (Loc.init l.buf l.tm l.gmt)) step)
  · show f (.null tm gmt) = (fun r => resume r id l) <$> g (.null tm gmt) >>= h
    rw [null_f, null_g]
    exact (null_h tm gmt).symm

/-- A format of time directives scanned in the loop, followed by more of the
format, against the same format scanned by a nested call: the same outcome. -/
theorem scan_inline (fuel : Nat) (fmt : CStr) (post : List Char) :
    ∀ (sub : List Char) (G : Nat) (inner : CStr) (q p : Nat) (l : Loc), timeOnly sub = true →
      fmt.chars.drop p = sub ++ post → inner.chars.drop q = sub → q ≤ inner.chars.length →
      sub.length < G →
      scan (fuel + sub.length) env input fmt p .top l =
        (do
          let step ← (fun r => resume r id l) <$> scan G env input inner q .top (Loc.init l.buf l.tm l.gmt)
          match step with
          | .next l => scan fuel env input fmt (p + sub.length) .top l
          | .null tm gmt => pure ⟨none, tm, gmt⟩)
  | [], G, inner, q, p, l, _, _, at_q, within, enough => by
    obtain ⟨G, rfl⟩ : ∃ G', G = G' + 1 := ⟨G - 1, by simp at enough; omega⟩
    have ended : q = inner.chars.length := by
      have := List.drop_eq_nil_iff.mp at_q
      omega
    rw [scan.eq_2, ended, CStr.charAt_length]
    rfl
  | c :: rest, G, inner, q, p, l, only, at_p, at_q, within, enough => by
    have inFmt : c ∈ fmt.chars := List.mem_of_mem_drop (by rw [at_p]; exact List.mem_cons_self _ _)
    have nonNul : c ≠ '\x00' := fun nul => fmt.no_nul (nul ▸ inFmt)
    have inner_next : q + 1 ≤ inner.chars.length := by
      have := congrArg List.length at_q
      simp only [List.length_drop, List.length_cons] at this
      omega
    by_cases percent : c = '%'
    · subst percent
      rcases rest with _ | ⟨d, rest⟩
      · exact absurd only (by decide)
      simp only [timeOnly, Bool.and_eq_true] at only
      obtain ⟨modifier, -, plain⟩ := timeDirective_cases only.1
      obtain ⟨G, rfl⟩ : ∃ G', G = G' + 2 := ⟨G - 2, by simp at enough; omega⟩
      have more : rest.length < G := by simp only [List.length_cons] at enough; omega
      have at_p' := CStr.drop_succ_of_drop at_p
      have at_q' := CStr.drop_succ_of_drop at_q
      have inner_next' : q + 1 + 1 ≤ inner.chars.length := by
        have := congrArg List.length at_q
        simp only [List.length_drop, List.length_cons] at this
        omega
      rw [show fuel + ('%' :: d :: rest).length = fuel + rest.length + 1 + 1 by simp; omega, scan.eq_2,
        scan.eq_2, CStr.charAt_of_drop at_p, CStr.charAt_of_drop at_q]
      simp only [ok_bind, ne_eq, not_true_eq_false, if_false, Char.reduceEq]
      rw [scan.eq_3, scan.eq_3, CStr.charAt_of_drop at_p', CStr.charAt_of_drop at_q']
      simp only [ok_bind, modifier.1, modifier.2, or_self, if_false, plain]
      refine inline_step (fun l => convert_rebase only.1 false l) l (fun _ _ => rfl) (fun _ _ => rfl)
        (fun _ _ => rfl) fun m init => ?_
      dsimp only
      rw [scan_inline fuel fmt post rest G inner (q + 1 + 1) (p + 1 + 1) (l.rebase m) only.2
        (CStr.drop_succ_of_drop at_p') (CStr.drop_succ_of_drop at_q') inner_next' more,
        show Loc.init (l.rebase m).buf (l.rebase m).tm (l.rebase m).gmt = m from init.symm]
      simp only [resume_rebase, List.length_cons, show p + 1 + 1 + rest.length = p + (rest.length + 1 + 1) by omega]
    · obtain ⟨G, rfl⟩ : ∃ G', G = G' + 1 := ⟨G - 1, by simp at enough; omega⟩
      have more : rest.length < G := by simp only [List.length_cons] at enough; omega
      rw [timeOnly_cons_of_ne percent] at only
      rw [show fuel + (c :: rest).length = fuel + rest.length + 1 by simp; omega, scan.eq_2, scan.eq_2,
        CStr.charAt_of_drop at_p, CStr.charAt_of_drop at_q]
      simp only [ok_bind, nonNul, percent, if_false, ne_eq, not_false_eq_true, if_true]
      refine inline_step (fun _ => literal_rebase c) l (fun _ _ => rfl) (fun _ _ => rfl) (fun _ _ => rfl)
        fun m init => ?_
      dsimp only
      rw [scan_inline fuel fmt post rest G inner (q + 1) (p + 1) (l.rebase m) only
        (CStr.drop_succ_of_drop at_p) (CStr.drop_succ_of_drop at_q) inner_next more,
        show Loc.init (l.rebase m).buf (l.rebase m).tm (l.rebase m).gmt = m from init.symm]
      simp only [resume_rebase, List.length_cons, show p + 1 + rest.length = p + (rest.length + 1) by omega]

/-- More fuel changes no result but running out of it. -/
theorem scan_add {fuel : Nat} {fmt : CStr} {ptr : Nat} {pc : Pc} {l : Loc} {o : Except Fault Ret}
    (ran : scan fuel env input fmt ptr pc l = o) (settles : o ≠ .error .fuel) :
    ∀ k, scan (fuel + k) env input fmt ptr pc l = o
  | 0 => ran
  | k + 1 => scan_succ (fuel + k) (scan_add ran settles k) settles

/-- The directive `%c` whose nested format `sub` sets no flag, against `sub`
written in its place, with enough fuel for the nested call. -/
theorem scan_nested_time {c : Char} {sub : CStr} (format : nested env.langinfo c = some (sub, id))
    (times : timeOnly sub.chars = true) {fmt fmt' : CStr} {p p' : Nat} {post : List Char}
    (at_p : fmt.chars.drop p = '%' :: c :: post) (at_p' : fmt'.chars.drop p' = sub.chars ++ post)
    (within' : p' ≤ fmt'.chars.length) (l : Loc) {G : Nat} (enough : sub.chars.length < G) :
    scan (G + 2) env input fmt p .top l = scan (G + sub.chars.length) env input fmt' p' .top l := by
  have modifier : c ≠ 'E' ∧ c ≠ 'O' := by
    constructor <;> rintro rfl <;> simp [nested] at format
  have at_p₁ := CStr.drop_succ_of_drop at_p
  have at_p₂ := CStr.drop_succ_of_drop at_p₁
  have rest : fmt.chars.drop (p + 1 + 1) = fmt'.chars.drop (p' + sub.chars.length) := by
    rw [at_p₂, ← List.drop_drop, at_p', List.drop_left]
  have within : p + 1 + 1 ≤ fmt.chars.length ↔ p' + sub.chars.length ≤ fmt'.chars.length := by
    have long := congrArg List.length at_p
    have long' := congrArg List.length at_p'
    simp only [List.length_drop, List.length_cons, List.length_append] at long long'
    omega
  rw [scan_inline G fmt' post sub.chars G sub 0 p' l times at_p' rfl (Nat.zero_le _) enough, scan.eq_2,
    CStr.charAt_of_drop at_p]
  simp only [ok_bind, ne_eq, not_true_eq_false, if_false, Char.reduceEq]
  rw [scan.eq_3, CStr.charAt_of_drop at_p₁]
  simp only [ok_bind, modifier.1, modifier.2, or_self, if_false, format]
  congr 1
  funext step
  cases step
  exacts [scan_congr G rest within _ _, rfl]

/-- At any point of the loop of `_strptime` where the format goes on with a
directive whose nested format sets no flag and holds only literal characters
and time directives (`%R` and `%T`; `%X` and `%r` when the locale's `T_FMT` and
`T_FMT_AMPM` are such), the call has the same outcomes, running out of fuel
aside, as with that format written in place of the directive. -/
theorem scan_nested_time_format_inlines {c : Char} {sub : CStr}
    (format : nested env.langinfo c = some (sub, id)) (times : timeOnly sub.chars = true)
    {fmt fmt' : CStr} {p p' : Nat} {post : List Char} (at_p : fmt.chars.drop p = '%' :: c :: post)
    (at_p' : fmt'.chars.drop p' = sub.chars ++ post) (within' : p' ≤ fmt'.chars.length) (l : Loc)
    (o : Except Fault Ret) (settles : o ≠ .error .fuel) :
    (∃ fuel, scan fuel env input fmt p .top l = o) ↔ (∃ fuel, scan fuel env input fmt' p' .top l = o) := by
  constructor
  · rintro ⟨fuel, ran⟩
    refine ⟨fuel + sub.chars.length + 1 + sub.chars.length, ?_⟩
    rw [← scan_nested_time format times at_p at_p' within' l (by omega),
      show fuel + sub.chars.length + 1 + 2 = fuel + (sub.chars.length + 3) by omega]
    exact scan_add ran settles _
  · rintro ⟨fuel, ran⟩
    refine ⟨fuel + sub.chars.length + 1 + 2, ?_⟩
    rw [scan_nested_time format times at_p at_p' within' l (by omega),
      show fuel + sub.chars.length + 1 + sub.chars.length = fuel + (sub.chars.length + 1 + sub.chars.length)
        by omega]
    exact scan_add ran settles _

/-- `%T.` against `%H:%M:%S.` on `12:34:56.`. -/
theorem scan_nested_time_format_inlines_T :
    nested Env.blank.langinfo 'T' = some (lit "%H:%M:%S" (by decide), id) ∧
      timeOnly (lit "%H:%M:%S" (by decide)).chars = true ∧
      (lit "%T." (by decide)).chars.drop 0 = '%' :: 'T' :: ['.'] ∧
      (lit "%H:%M:%S." (by decide)).chars.drop 0 = (lit "%H:%M:%S" (by decide)).chars ++ ['.'] ∧
      0 ≤ (lit "%H:%M:%S." (by decide)).chars.length ∧
      (.ok ⟨some 9, ⟨56, 34, 12, 0, 0, 0, 0, 0, 0⟩, false⟩ : Except Fault Ret) ≠ .error .fuel ∧
      ((∃ fuel, scan fuel Env.blank (lit "12:34:56." (by decide)) (lit "%T." (by decide)) 0 .top
          (Loc.init 0 ⟨0, 0, 0, 0, 0, 0, 0, 0, 0⟩ false) = .ok ⟨some 9, ⟨56, 34, 12, 0, 0, 0, 0, 0, 0⟩, false⟩) ↔
        ∃ fuel, scan fuel Env.blank (lit "12:34:56." (by decide)) (lit "%H:%M:%S." (by decide)) 0 .top
          (Loc.init 0 ⟨0, 0, 0, 0, 0, 0, 0, 0, 0⟩ false) = .ok ⟨some 9, ⟨56, 34, 12, 0, 0, 0, 0, 0, 0⟩, false⟩) :=
  ⟨rfl, by decide, rfl, rfl, Nat.zero_le _, nofun,
    @scan_nested_time_format_inlines Env.blank _ 'T' (lit "%H:%M:%S" (by decide)) rfl (by decide)
      (lit "%T." (by decide)) (lit "%H:%M:%S." (by decide)) 0 0 ['.'] rfl rfl (Nat.zero_le _) _ _ nofun⟩

end Strptime
end Userland
