import Userland.Strptime.Termination
import Userland.Strptime.Clock

/-!
# `*GMTp`

`_strptime` reports through `GMTp` that the time it read is UTC, and
`strptime_bsd` then moves `tm` to local time.  Only `%Z` on `GMT` or `UTC`, `%z`
and `%s` set the flag, and nothing clears it: no directive, no call nested
through another format and not the completion of the date.  So a run keeps a
flag it was given set, and a run whose format, and every format it parses with,
holds none of `%Z %z %s` returns the flag as it was given; `strptime_bsd` then
returns `tm` as `_strptime` left it.

Each directive is shown to keep the flag or, for `%Z %z %s`, to set it; the
loop, by induction on the fuel, carries any reflexive and transitive relation
between the flag before and after that the directives it reaches keep.
-/

namespace Userland
namespace Strptime

/-! ## What a computation returns -/

/-- What `r` returns, if it returns, satisfies `post`; a fault satisfies it. -/
def Yields {α : Type} (r : Except Fault α) (post : α → Prop) : Prop :=
  match r with
  | .ok a => post a
  | .error _ => True

namespace Yields

variable {α β : Type} {r : Except Fault α} {P Q : α → Prop}

theorem pure {a : α} (holds : P a) : Yields (Pure.pure a : Except Fault α) P := holds

theorem bind {f : α → Except Fault β} {R : β → Prop} (first : Yields r P)
    (rest : ∀ a, P a → Yields (f a) R) : Yields (r >>= f) R := by
  cases r with
  | error e => trivial
  | ok a => exact rest a first

/-- A first step whose result the postcondition does not depend on. -/
theorem any {f : α → Except Fault β} {R : β → Prop} (rest : ∀ a, Yields (f a) R) :
    Yields (r >>= f) R := by
  cases r with
  | error e => trivial
  | ok a => exact rest a

theorem map {f : α → β} {R : β → Prop} (first : Yields r P) (holds : ∀ a, P a → R (f a)) :
    Yields (f <$> r) R := by
  cases r with
  | error e => trivial
  | ok a => exact holds a first

theorem ite {p : Prop} [Decidable p] {a b : Except Fault α} (yes : Yields a P) (no : Yields b P) :
    Yields (if p then a else b) P := by
  split
  exacts [yes, no]

theorem mono (yields : Yields r P) (weaker : ∀ a, P a → Q a) : Yields r Q := by
  cases r with
  | error e => trivial
  | ok a => exact weaker a yields

theorem of_ok {a : α} (yields : Yields r P) (ran : r = .ok a) : P a := by
  subst ran
  exact yields

end Yields

/-! ## The directives -/

/-- `*GMTp` once a directive is done. -/
def Step.gmt : Step → Bool
  | .next l => l.gmt
  | .null _ gmt => gmt

variable {input : CStr} {l : Loc}

theorem convPercent_gmt : Yields (convPercent input l) (·.gmt = l.gmt) :=
  Yields.any fun c => Yields.pure (by split <;> rfl)

theorem convCentury_gmt : Yields (convCentury input l) (·.gmt = l.gmt) :=
  Yields.any fun r => by rcases r with _ | ⟨i, buf⟩ <;> exact rfl

theorem convYday_gmt : Yields (convYday input l) (·.gmt = l.gmt) :=
  Yields.any fun r => by rcases r with _ | ⟨i, buf⟩; exacts [rfl, Yields.ite rfl rfl]

theorem convMinSec_gmt (c : Char) : Yields (convMinSec c input l) (·.gmt = l.gmt) :=
  Yields.any fun _ => Yields.ite rfl <| Yields.any fun r => by
    rcases r with _ | ⟨i, buf⟩
    exacts [rfl, Yields.ite (Yields.ite rfl rfl) (Yields.ite rfl rfl)]

theorem convHour_gmt (c : Char) : Yields (convHour c input l) (·.gmt = l.gmt) :=
  Yields.any fun _ => Yields.any fun r => by rcases r with _ | ⟨i, buf⟩; exacts [rfl, Yields.ite rfl rfl]

theorem convAmPm_gmt (lang : Langinfo) : Yields (convAmPm lang input l) (·.gmt = l.gmt) :=
  Yields.ite rfl <| Yields.any fun _ => Yields.ite rfl <| Yields.any fun _ => Yields.ite rfl rfl

theorem convWeekday_gmt (lang : Langinfo) : Yields (convWeekday lang input l) (·.gmt = l.gmt) :=
  Yields.any fun r => by rcases r with _ | ⟨i, len⟩ <;> exact rfl

theorem convWeek_gmt (c : Char) : Yields (convWeek c input l) (·.gmt = l.gmt) :=
  Yields.any fun r => by rcases r with _ | ⟨i, buf⟩; exacts [rfl, Yields.ite rfl rfl]

theorem convWdayNumber_gmt (c : Char) : Yields (convWdayNumber c input l) (·.gmt = l.gmt) :=
  Yields.any fun _ => Yields.ite rfl (Yields.ite rfl rfl)

theorem convMday_gmt (buf : Nat) : Yields (convMday input buf l) (·.gmt = l.gmt) :=
  Yields.any fun r => by rcases r with _ | ⟨i, buf⟩; exacts [rfl, Yields.ite rfl rfl]

theorem convMonthName_gmt (lang : Langinfo) (c : Char) (O : Bool) :
    Yields (convMonthName lang c O input l) (·.gmt = l.gmt) :=
  Yields.any fun r => by rcases r with _ | ⟨i, len⟩ <;> exact rfl

theorem convMonth_gmt : Yields (convMonth input l) (·.gmt = l.gmt) :=
  Yields.any fun r => by rcases r with _ | ⟨i, buf⟩; exacts [rfl, Yields.ite rfl rfl]

theorem convYear_gmt (c : Char) : Yields (convYear c input l) (·.gmt = l.gmt) :=
  Yields.any fun _ => Yields.ite rfl <| Yields.any fun r => by rcases r with _ | ⟨i, buf⟩ <;> exact rfl

theorem convSpace_gmt : Yields (convSpace input l) (·.gmt = l.gmt) :=
  Yields.any fun _ => rfl

/-- `%s` sets `*GMTp` once `gmtime_r` has converted the seconds. -/
theorem convEpoch_gmt (env : Env) : Yields (convEpoch env input l) fun s => s.gmt = l.gmt ∨ s.gmt = true :=
  Yields.any fun _ => Yields.ite (Or.inl rfl) (Yields.pure (by split; exacts [Or.inr rfl, Or.inl rfl]))

/-- `%Z` sets `*GMTp` on `GMT` and `UTC`, and only there. -/
theorem convZone_gmt (env : Env) : Yields (convZone env input l) fun s => s.gmt = l.gmt ∨ s.gmt = true :=
  Yields.any fun _ =>
    Yields.ite (Or.inl rfl) <| Yields.ite (Or.inr rfl) <| Yields.ite (Or.inl rfl) <| Yields.ite (Or.inl rfl) (Or.inl rfl)

/-- `%z` sets `*GMTp` once it has read an offset in range. -/
theorem convOffset_gmt : Yields (convOffset input l) fun s => s.gmt = l.gmt ∨ s.gmt = true :=
  Yields.any fun _ => Yields.ite (Or.inl rfl) <| Yields.any fun r => by
    rcases r with _ | ⟨i, buf⟩
    exacts [Or.inl rfl, Yields.ite (Or.inl rfl) (Or.inr rfl)]

/-- A directive keeps `*GMTp`, or it is one of `%Z %z %s` and the flag is set. -/
theorem convert_gmt (env : Env) (c : Char) (O : Bool) :
    Yields (convert env input c O l) fun s => s.gmt = l.gmt ∨ c ∈ ['Z', 'z', 's'] ∧ s.gmt = true := by
  have keeps : ∀ {s : Except Fault Step} {c : Char}, Yields s (·.gmt = l.gmt) →
      Yields s fun s => s.gmt = l.gmt ∨ c ∈ ['Z', 'z', 's'] ∧ s.gmt = true :=
    fun kept => kept.mono fun _ => Or.inl
  have sets : ∀ {s : Except Fault Step} {c : Char}, c ∈ ['Z', 'z', 's'] →
      Yields s (fun s => s.gmt = l.gmt ∨ s.gmt = true) →
      Yields s fun s => s.gmt = l.gmt ∨ c ∈ ['Z', 'z', 's'] ∧ s.gmt = true :=
    fun zone set => set.mono fun _ => Or.imp_right fun set => ⟨zone, set⟩
  unfold convert
  split
  · exact keeps convPercent_gmt
  · exact keeps convCentury_gmt
  · exact keeps convYday_gmt
  · exact keeps (convMinSec_gmt _)
  · exact keeps (convMinSec_gmt _)
  · exact keeps (convHour_gmt _)
  · exact keeps (convHour_gmt _)
  · exact keeps (convHour_gmt _)
  · exact keeps (convHour_gmt _)
  · exact keeps (convAmPm_gmt _)
  · exact keeps (convWeekday_gmt _)
  · exact keeps (convWeekday_gmt _)
  · exact keeps (convWeek_gmt _)
  · exact keeps (convWeek_gmt _)
  · exact keeps (convWdayNumber_gmt _)
  · exact keeps (convWdayNumber_gmt _)
  · exact keeps (Yields.any fun buf => convMday_gmt buf)
  · exact keeps (convMday_gmt _)
  · exact keeps (convMonthName_gmt _ _ _)
  · exact keeps (convMonthName_gmt _ _ _)
  · exact keeps (convMonthName_gmt _ _ _)
  · exact keeps convMonth_gmt
  · exact sets (by decide) (convEpoch_gmt env)
  · exact keeps (convYear_gmt _)
  · exact keeps (convYear_gmt _)
  · exact sets (by decide) (convZone_gmt env)
  · exact sets (by decide) convOffset_gmt
  · exact keeps convSpace_gmt
  · exact keeps convSpace_gmt
  · exact Or.inl rfl

theorem literal_gmt (c : Char) : Yields (literal input c l) (·.gmt = l.gmt) := by
  unfold literal
  split
  · exact Yields.any fun _ => rfl
  · exact Yields.any fun _ => Yields.pure (by split <;> rfl)

/-! ## The completion and the nested calls -/

theorem finish_gmt (l : Loc) : Yields (finish l) (·.gmt = l.gmt) :=
  Yields.any fun r => by
    rcases r with _ | ⟨tm, flags⟩
    · exact rfl
    · exact Yields.any fun _ => rfl

/-- A nested call's `*GMTp` is the caller's from then on. -/
theorem resume_gmt (r : Ret) (set : Flags → Flags) (l : Loc) : (resume r set l).gmt = r.gmt := by
  unfold resume
  split <;> rfl

/-! ## The loop -/

/-- The directive `d` keeps the relation `R` between `*GMTp` before it and after
it, and the formats it parses with lie in `S`. -/
def KeepsGmt (env : Env) (input : CStr) (R : Bool → Bool → Prop) (S : CStr → Prop) (d : Char) : Prop :=
  (∀ O l, Yields (convert env input d O l) fun s => R l.gmt s.gmt) ∧
    ∀ sub set, nested env.langinfo d = some (sub, set) → S sub

section Run

variable {env : Env} {R : Bool → Bool → Prop} {S : CStr → Prop}

/-- From any point of a format whose directives from there on keep `R`, and parse
only with formats in `S` whose directives keep it too, the loop keeps `R` between
the flag it starts with and the flag it returns. -/
theorem scan_gmt (refl : ∀ g, R g g) (trans : ∀ {a b c}, R a b → R b c → R a c)
    (closed : ∀ f, S f → ∀ d ∈ dispatched .top f.chars, KeepsGmt env input R S d) :
    ∀ (fuel : Nat) (fmt : CStr) (ptr : Nat) (pc : Pc) (l : Loc),
      (∀ d ∈ dispatched pc (fmt.chars.drop ptr), KeepsGmt env input R S d) →
      Yields (scan fuel env input fmt ptr pc l) fun r => R l.gmt r.gmt
  | 0, _, _, _, _, _ => trivial
  | fuel + 1, fmt, ptr, pc, l, keeps => by
    have run := scan_gmt refl trans closed fuel
    have next : ∀ {s : Except Fault Step} {p : Nat}, Yields s (fun s => R l.gmt s.gmt) →
        (∀ d ∈ dispatched .top (fmt.chars.drop p), KeepsGmt env input R S d) →
        Yields (s >>= fun step => match step with
          | .next l => scan fuel env input fmt p .top l
          | .null tm gmt => Pure.pure ⟨none, tm, gmt⟩) fun r => R l.gmt r.gmt :=
      fun first rest => first.bind fun
        | .next l', kept => (run fmt _ .top l' rest).mono fun _ => trans kept
        | .null _ _, kept => kept
    rcases at_p : fmt.chars.drop ptr with _ | ⟨c, rest⟩
    · rcases CStr.charAt_of_drop_nil at_p with read | read <;> cases pc
      · rw [scan_end read]
        exact (finish_gmt l).mono fun _ same => same ▸ refl _
      · rw [scan.eq_3, read]
        exact refl l.gmt
      · rw [scan.eq_2, read]
        trivial
      · rw [scan.eq_3, read]
        trivial
    · have read := CStr.charAt_of_drop at_p
      have after := CStr.drop_succ_of_drop at_p
      have nonNul : c ≠ '\x00' := fun nul =>
        fmt.no_nul (nul ▸ List.mem_of_mem_drop (by rw [at_p]; exact List.mem_cons_self _ _))
      rw [at_p] at keeps
      cases pc with
      | top =>
        by_cases percent : c = '%'
        · rw [scan_percent (percent ▸ read)]
          exact run fmt _ _ l (by rw [after]; simpa [dispatched, percent] using keeps)
        · rw [scan.eq_2, read]
          simp only [ok_bind, nonNul, percent, if_false, ne_eq, not_false_eq_true, if_true]
          exact next ((literal_gmt c).mono fun _ same => same ▸ refl _)
            (by rw [after]; simpa [dispatched, percent] using keeps)
      | label E O =>
        rw [scan.eq_3, read]
        by_cases modifier : c = 'E' ∨ c = 'O'
        · by_cases again : (E || O) = true
          · simp only [ok_bind, modifier, again, if_true]
            exact run fmt _ _ l (by rw [after]; simpa [dispatched, modifier, again] using keeps)
          · simp only [ok_bind, modifier, again, if_true, if_false, Bool.false_eq_true]
            exact run fmt _ _ l (by rw [after]; simpa [dispatched, modifier, again] using keeps)
        · simp only [dispatched, modifier, if_false, List.mem_cons, forall_eq_or_imp] at keeps
          simp only [ok_bind, modifier, if_false]
          rcases format : nested env.langinfo c with _ | ⟨sub, set⟩
          · exact next (keeps.1.1 O l) (after ▸ keeps.2)
          · exact next ((run sub 0 .top _ (closed sub (keeps.1.2 sub set format))).map
              fun r kept => (resume_gmt r set l).symm ▸ kept) (after ▸ keeps.2)

end Run

/-! ## A set flag stays set -/

/-- Every directive keeps a set flag set. -/
theorem keepsGmt_set (d : Char) :
    KeepsGmt env input (fun before after => before = true → after = true) (fun _ => True) d :=
  ⟨fun O _ => (convert_gmt env d O).mono fun _ kept set => kept.elim (·.trans set) (·.2),
    fun _ _ _ => trivial⟩

/-- `_strptime` never clears `*GMTp`: a run given the flag set returns it set,
whatever the format, the input and the locale. -/
theorem strptime_never_clears_gmt {fuel : Nat} {env : Env} {input : CStr} {buf : Nat} {fmt : CStr}
    {tm : Tm} {r : Ret} (ran : _strptime fuel env input buf fmt tm true = .ok r) : r.gmt = true :=
  (scan_gmt (fun _ => id) (fun ab bc set => bc (ab set)) (fun _ _ d _ => keepsGmt_set d) fuel fmt 0 .top _
    fun d _ => keepsGmt_set d).of_ok ran rfl

/-- `"%Z"` on `"EST"`, the local zone's standard name, with the flag set: the
zone is read and the flag stays set. -/
theorem strptime_never_clears_gmt_eastern :
    _strptime 3 Env.eastern (lit "EST" (by decide)) 0 formatZ ⟨0, 0, 0, 0, 0, 0, 0, 0, 1⟩ true =
      .ok ⟨some 3, ⟨0, 0, 0, 0, 0, 0, 0, 0, 0⟩, true⟩ ∧ (⟨some 3, ⟨0, 0, 0, 0, 0, 0, 0, 0, 0⟩, true⟩ : Ret).gmt = true :=
  have ran : _strptime 3 Env.eastern (lit "EST" (by decide)) 0 formatZ ⟨0, 0, 0, 0, 0, 0, 0, 0, 1⟩ true =
      .ok ⟨some 3, ⟨0, 0, 0, 0, 0, 0, 0, 0, 0⟩, true⟩ := rfl
  ⟨ran, strptime_never_clears_gmt ran⟩

/-! ## Formats that read no zone -/

/-- A format that reads no zone: none of its directives, and none of the formats
they parse with, is `%Z`, `%z` or `%s`. -/
inductive ReadsNoZone (lang : Langinfo) : CStr → Prop
  | intro {fmt : CStr} (own : ∀ d ∈ dispatched .top fmt.chars, d ∉ ['Z', 'z', 's'])
      (calls : ∀ d ∈ dispatched .top fmt.chars, ∀ sub set, nested lang d = some (sub, set) →
        ReadsNoZone lang sub) :
      ReadsNoZone lang fmt

/-- A format that parses with no other format reads no zone once its own
directives include none. -/
theorem ReadsNoZone.of_plain {lang : Langinfo} {fmt : CStr}
    (own : ∀ d ∈ dispatched .top fmt.chars, d ∉ ['Z', 'z', 's']) (plain : Plain fmt) : ReadsNoZone lang fmt :=
  .intro own fun d mem _ _ format => by
    rw [nested_none (plain d mem)] at format
    cases format

theorem ReadsNoZone.keepsGmt {fmt : CStr} (free : ReadsNoZone env.langinfo fmt) :
    ∀ d ∈ dispatched .top fmt.chars, KeepsGmt env input Eq (ReadsNoZone env.langinfo) d := by
  cases free with
  | intro own calls =>
    exact fun d mem => ⟨fun O _ => (convert_gmt env d O).mono fun _ kept =>
      (kept.resolve_right fun zone => own d mem zone.1).symm, calls d mem⟩

/-- On a format that reads no zone, `strptime_bsd` returns `tm` as `_strptime`
left it: it never moves it to local time. -/
theorem strptime_bsd_without_zone {env : Env} {fmt : CStr} (free : ReadsNoZone env.langinfo fmt)
    (fuel : Nat) (input : CStr) (tm : Tm) :
    strptime_bsd fuel env input fmt tm = (fun r => (r.buf, r.tm)) <$> _strptime fuel env input 0 fmt tm false := by
  have kept : Yields (scan fuel env input fmt 0 .top (Loc.init 0 tm false)) fun r => false = r.gmt :=
    scan_gmt (fun _ => rfl) Eq.trans (fun _ free => free.keepsGmt) fuel fmt 0 .top _ free.keepsGmt
  unfold strptime_bsd
  rcases ran : _strptime fuel env input 0 fmt tm false with e | r
  · rfl
  · have unset : r.gmt = false := (kept.of_ok ran).symm
    simp [unset]

/-- `"%c"` in the POSIX locale: `D_T_FMT` is `"%a %b %e %H:%M:%S %Y"`, which reads
no zone. -/
theorem strptime_bsd_without_zone_ctime :
    ReadsNoZone Env.posix.langinfo (lit "%c" (by decide)) ∧
      strptime_bsd 30 Env.posix (lit "Thu Feb 29 14:03:09 2024" (by decide)) (lit "%c" (by decide))
          ⟨0, 0, 0, 0, 0, 0, 0, 0, 0⟩ =
        (fun r => (r.buf, r.tm)) <$> _strptime 30 Env.posix (lit "Thu Feb 29 14:03:09 2024" (by decide)) 0
          (lit "%c" (by decide)) ⟨0, 0, 0, 0, 0, 0, 0, 0, 0⟩ false :=
  have free : ReadsNoZone Env.posix.langinfo (lit "%c" (by decide)) :=
    .intro (by decide) fun d mem sub set format => by
      obtain rfl : d = 'c' := List.mem_singleton.mp mem
      cases format
      exact .of_plain (by decide) (by decide)
  ⟨free, strptime_bsd_without_zone free _ _ _⟩

end Strptime
end Userland
