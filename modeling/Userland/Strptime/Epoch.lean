import Userland.Strptime.Run

/-!
# Seconds since the Epoch

`%s` reads a number with `strtol`, which skips white space and takes one sign,
turns it into the UTC time by `gmtime_r`, sets every flag and `*GMTp`, and
`strptime_bsd` then moves the result to local time.  On white space, a sign and
digits (any number of them, leading zeros included) followed by a character
that is not a digit, `strptime_bsd` with the format `"%s"` returns the end of
the digits and the local time of the number, or `NULL` with `tm` untouched when
the number is outside `long` or `gmtime_r` fails.
-/

namespace Userland
namespace Strptime

/-! ## `strtol` on a zero-padded field -/

theorem foldl_pad : ∀ (w v i : Nat),
    (pad w v).foldl (fun i c => i * 10 + digitValue c) i = i * 10 ^ w + v % 10 ^ w
  | 0, v, i => by simp [pad, Nat.mod_one]
  | w + 1, v, i => by
    rw [pad, List.foldl_cons, foldl_pad w v,
      (digitChar_spec (v / 10 ^ w % 10) (Nat.mod_lt _ (by decide))).2.2.2, Nat.mod_pow_succ]
    ring

/-- The value of a `w`-digit zero-padded field. -/
theorem decimalValue_pad (w v : Nat) : CStr.decimalValue (pad w v) = v % 10 ^ w := by
  simpa using foldl_pad w v 0

theorem isdigit_of_mem_pad {w v : Nat} {c : Char} (mem : c ∈ pad w v) : isdigit c = true := by
  obtain ⟨k, lt, rfl⟩ := mem_pad mem
  exact (digitChar_spec k lt).2.1

/-- The digits of a field end where a character that is not a digit starts. -/
theorem takeWhile_isdigit_pad {w v : Nat} {rest : List Char}
    (stop : ∀ c ∈ rest.head?, isdigit c = false) : (pad w v ++ rest).takeWhile isdigit = pad w v := by
  rw [List.takeWhile_append_of_pos fun _ mem => isdigit_of_mem_pad mem]
  cases rest with
  | nil => simp
  | cons c rest => simp [List.takeWhile_cons_of_neg, stop c rfl]

/-- The sign `strtol` accepts in front of the digits, if any. -/
def Signed (sign : List Char) : Prop := sign = [] ∨ sign = ['+'] ∨ sign = ['-']

/-- The number a sign and a magnitude stand for. -/
def signedValue (sign : List Char) (v : Nat) : Int := if sign = ['-'] then -(v : Int) else v

/-- `strtol` on white space, a sign and a zero-padded field followed by a
character that is not a digit: the field's value with its sign, the end of the
digits, and whether the value lies outside `long`. -/
theorem strtol_pad {s : CStr} {p : Nat} {ws sign rest : List Char} {w v : Nat}
    (blank : ∀ c ∈ ws, isspace c = true) (signed : Signed sign) (wide : 1 ≤ w) (small : v < 10 ^ w)
    (stop : ∀ c ∈ rest.head?, isdigit c = false) (at_p : s.chars.drop p = ws ++ sign ++ pad w v ++ rest) :
    s.strtol p = .ok (signedValue sign v, p + ws.length + sign.length + w,
      decide (signedValue sign v < -2 ^ 63 ∨ 2 ^ 63 - 1 < signedValue sign v)) := by
  obtain ⟨k, rfl⟩ : ∃ k, w = k + 1 := ⟨w - 1, by omega⟩
  have head : ∀ {c}, c ∈ (sign ++ pad (k + 1) v ++ rest).head? → isspace c = false := by
    rcases signed with rfl | rfl | rfl <;> simp [pad, (digitChar_spec _ (Nat.mod_lt _ (by decide))).2.2.1] <;> decide
  have spaces : (s.chars.drop p).takeWhile isspace = ws := by
    rw [at_p, List.append_assoc, List.append_assoc, List.takeWhile_append_of_pos blank]
    rcases here : sign ++ (pad (k + 1) v ++ rest) with _ | ⟨c, more⟩
    · simp [pad] at here
    · rw [← List.append_assoc] at here
      simp [List.takeWhile_cons_of_neg, head (c := c) (by simp [here])]
  have within : p ≤ s.chars.length := by
    have := congrArg List.length at_p
    simp only [List.length_drop, List.length_append, pad_length] at this
    omega
  have at_q : s.chars.drop (p + ws.length) = sign ++ (pad (k + 1) v ++ rest) := by
    simpa using drop_append_of_drop (by simpa using at_p)
  have at_d : s.chars.drop (p + ws.length + sign.length) = pad (k + 1) v ++ rest :=
    drop_append_of_drop at_q
  have digits : (s.chars.drop (p + ws.length + sign.length)).takeWhile isdigit = pad (k + 1) v := by
    rw [at_d, takeWhile_isdigit_pad stop]
  have inner : p + ws.length + sign.length ≤ s.chars.length := by
    have := congrArg List.length at_d
    simp only [List.length_drop, List.length_append, pad_length] at this
    omega
  have value : CStr.decimalValue ((s.chars.drop (p + ws.length + sign.length)).take (k + 1)) = v := by
    rw [at_d, List.take_left' (pad_length _ _), decimalValue_pad, Nat.mod_eq_of_lt small]
  obtain ⟨c, read, skip, minus⟩ : ∃ c, s.charAt (p + ws.length) = .ok c ∧
      (if c = '-' ∨ c = '+' then p + ws.length + 1 else p + ws.length) = p + ws.length + sign.length ∧
      (c = '-' ↔ sign = ['-']) := by
    rcases signed with rfl | rfl | rfl
    · obtain ⟨more, digit⟩ : ∃ more, pad (k + 1) v = digitChar (v / 10 ^ k % 10) :: more := ⟨_, rfl⟩
      have unsigned : ∀ d < 10, digitChar d ≠ '-' ∧ digitChar d ≠ '+' := by decide
      have plain := unsigned (v / 10 ^ k % 10) (Nat.mod_lt _ (by decide))
      exact ⟨_, CStr.charAt_of_drop (by rw [at_q, digit]; rfl), by simp [plain.1, plain.2], by simp [plain.1]⟩
    · exact ⟨'+', CStr.charAt_of_drop (by rw [at_q]; rfl), by simp, by simp⟩
    · exact ⟨'-', CStr.charAt_of_drop (by rw [at_q]; rfl), by simp, by simp⟩
  simp only [CStr.strtol, CStr.span_eq s (p := isspace) rfl within, spaces, ok_bind, read]
  rw [skip]
  simp only [CStr.span_eq s (p := isdigit) rfl inner, digits, pad_length, ok_bind, Nat.add_sub_cancel_left,
    value, signedValue, minus, pure_eq_ok]
  simp

/-! ## `%s` -/

section Epoch

variable (env : Env) {input : CStr} {ws sign rest : List Char} {w v : Nat}

/-- `%s` on white space, a sign and a zero-padded field: `NULL` when the number
is outside `long`, `NULL` with what `gmtime_r` left in `tm` when it fails, and
otherwise the UTC time of the number with every flag and `*GMTp` set. -/
theorem convEpoch_pad {l : Loc} (blank : ∀ c ∈ ws, isspace c = true) (signed : Signed sign)
    (wide : 1 ≤ w) (small : v < 10 ^ w) (stop : ∀ c ∈ rest.head?, isdigit c = false)
    (at_buf : input.chars.drop l.buf = ws ++ sign ++ pad w v ++ rest) :
    convEpoch env input l = .ok
      (if signedValue sign v < -2 ^ 63 ∨ 2 ^ 63 - 1 < signedValue sign v then l.null
      else if (env.gmtime_r (signedValue sign v) l.tm).2 then .next { l with
          buf := l.buf + ws.length + sign.length + w, tm := (env.gmtime_r (signedValue sign v) l.tm).1,
          gmt := true, flags := ⟨true, true, true, true, true⟩ }
        else .null (env.gmtime_r (signedValue sign v) l.tm).1 l.gmt) := by
  simp only [convEpoch, strtol_pad blank signed wide small stop at_buf, ok_bind, decide_eq_true_eq]
  split <;> rfl

/-- With every flag set and no year read, completing the date changes nothing. -/
theorem finish_all_flags {l : Loc} (century : l.century = -1) (year : l.year = -1)
    (flags : l.flags = ⟨true, true, true, true, true⟩) : finish l = .ok ⟨some l.buf, l.tm, l.gmt⟩ := by
  simp only [finish, setYear, century, year, ne_eq, not_true_eq_false, or_self, if_false, deriveYday,
    flags, Bool.not_true, Bool.false_and, Bool.false_eq_true, ok_bind, deriveFields, Bool.and_self, if_true]
  rfl

/-- `strptime_bsd` with the format `"%s"` on white space, a sign and digits
followed by a character that is not a digit, where `timegm` undoes a `gmtime_r`
that succeeds: `NULL` with `tm` untouched when the number is outside `long`,
`NULL` with what `gmtime_r` left in `tm` when it fails, and otherwise the end of
the digits and the local time of the number. -/
theorem strptime_bsd_reads_epoch (inverse : ∀ n tm tm', env.gmtime_r n tm = (tm', true) → env.timegm tm' = n)
    (blank : ∀ c ∈ ws, isspace c = true) (signed : Signed sign) (wide : 1 ≤ w) (small : v < 10 ^ w)
    (stop : ∀ c ∈ rest.head?, isdigit c = false) (text : input.chars = ws ++ sign ++ pad w v ++ rest)
    (tm : Tm) {fuel : Nat} (enough : 3 ≤ fuel) :
    strptime_bsd fuel env input (lit "%s" (by decide)) tm =
      .ok (if signedValue sign v < -2 ^ 63 ∨ 2 ^ 63 - 1 < signedValue sign v then (none, tm)
        else if (env.gmtime_r (signedValue sign v) tm).2 then
          (some (ws.length + sign.length + w),
            env.localtime_r (signedValue sign v) (env.gmtime_r (signedValue sign v) tm).1)
        else (none, (env.gmtime_r (signedValue sign v) tm).1)) := by
  obtain ⟨k, rfl⟩ : ∃ k, fuel = k + 2 + 1 := ⟨fuel - 3, by omega⟩
  have step := convEpoch_pad env (l := Loc.init 0 tm false) blank signed wide small stop (by simpa using text)
  have plain : 's' ≠ 'E' ∧ 's' ≠ 'O' := by decide
  have percent : (lit "%s" (by decide)).charAt 0 = .ok '%' := rfl
  have epoch : (lit "%s" (by decide)).charAt (0 + 1) = .ok 's' := rfl
  have ended : (lit "%s" (by decide)).charAt (0 + 1 + 1) = .ok '\x00' := rfl
  unfold strptime_bsd _strptime
  rw [scan_percent percent]
  split
  · next range =>
    rw [if_pos range] at step
    rw [scan_convert_null epoch plain rfl step]
    rfl
  · next range =>
    rw [if_neg range] at step
    rcases utc : env.gmtime_r (signedValue sign v) tm with ⟨tm', _ | _⟩
    · rw [show (Loc.init 0 tm false).tm = tm from rfl, utc] at step
      rw [scan_convert_null epoch plain rfl step]
      rfl
    · rw [show (Loc.init 0 tm false).tm = tm from rfl, utc] at step
      rw [scan_convert epoch plain rfl step, scan_end ended, finish_all_flags rfl rfl rfl]
      simp only [ok_bind, Option.isSome_some, Bool.and_self, if_true, inverse _ _ _ utc, Loc.init_buf, Nat.zero_add,
        pure_eq_ok]

/-- A clock that keeps the seconds since the Epoch in `tm_sec`, in UTC and in
local time alike; `timegm` reads them back. -/
def Env.secondsClock : Env :=
  { Env.blank with
    gmtime_r := fun n _ => (⟨n, 0, 0, 0, 0, 0, 0, 0, 0⟩, true)
    timegm := fun tm => tm.tm_sec
    localtime_r := fun n _ => ⟨n, 0, 0, 0, 0, 0, 0, 0, 0⟩ }

example : strptime_bsd 3 Env.secondsClock (lit "  -042x" (by decide)) (lit "%s" (by decide))
    ⟨0, 0, 0, 0, 0, 0, 0, 0, 0⟩ = .ok (some 6, ⟨-42, 0, 0, 0, 0, 0, 0, 0, 0⟩) := rfl

/-- `"%s"` on `"  -042x"`. -/
theorem strptime_bsd_reads_epoch_negative :
    (∀ n tm tm', Env.secondsClock.gmtime_r n tm = (tm', true) → Env.secondsClock.timegm tm' = n) ∧
      (∀ c ∈ [' ', ' '], isspace c = true) ∧ Signed ['-'] ∧ 1 ≤ 3 ∧ 42 < 10 ^ 3 ∧
      (∀ c ∈ ['x'].head?, isdigit c = false) ∧
      (lit "  -042x" (by decide)).chars = [' ', ' '] ++ ['-'] ++ pad 3 42 ++ ['x'] ∧ 3 ≤ 3 ∧
      strptime_bsd 3 Env.secondsClock (lit "  -042x" (by decide)) (lit "%s" (by decide))
          ⟨0, 0, 0, 0, 0, 0, 0, 0, 0⟩ =
        .ok (if signedValue ['-'] 42 < -2 ^ 63 ∨ 2 ^ 63 - 1 < signedValue ['-'] 42 then
            (none, ⟨0, 0, 0, 0, 0, 0, 0, 0, 0⟩)
          else if (Env.secondsClock.gmtime_r (signedValue ['-'] 42) ⟨0, 0, 0, 0, 0, 0, 0, 0, 0⟩).2 then
            (some ([' ', ' '].length + ['-'].length + 3), Env.secondsClock.localtime_r (signedValue ['-'] 42)
              (Env.secondsClock.gmtime_r (signedValue ['-'] 42) ⟨0, 0, 0, 0, 0, 0, 0, 0, 0⟩).1)
          else (none, (Env.secondsClock.gmtime_r (signedValue ['-'] 42) ⟨0, 0, 0, 0, 0, 0, 0, 0, 0⟩).1)) :=
  have inverse : ∀ n tm tm', Env.secondsClock.gmtime_r n tm = (tm', true) → Env.secondsClock.timegm tm' = n :=
    fun _ _ _ utc => by cases utc; rfl
  ⟨inverse, by decide, .inr (.inr rfl), by decide, by decide, by decide, by decide, by decide,
    @strptime_bsd_reads_epoch Env.secondsClock _ [' ', ' '] ['-'] ['x'] 3 42 inverse (by decide) (.inr (.inr rfl))
      (by decide) (by decide) (by decide) (by decide) _ _ (by decide)⟩

end Epoch

end Strptime
end Userland
