import Mathlib.Data.List.Basic
import Mathlib.Algebra.Group.Int

/-!
# C strings and the library calls `_strptime` makes on them

`_strptime` walks its input and its formats with `char` pointers.  A pointer is
a position in a NUL-terminated string: reading at the terminator gives NUL, and
reading past it is undefined behaviour, a fault at which a run of the model
stops.  The library calls made on the input (`strncasecmp`, `strtol`) and the
loops that scan it read it through the same function, so a read past the
terminator is a fault wherever it happens.

`Safe r post` says that `r` read no string past its terminator and that `post`
holds of the value it returns; it is proved one call at a time and composed
through `bind`.
-/

namespace Userland
namespace Strptime

/-- A NUL-terminated string: the characters before its terminator. -/
structure CStr where
  /-- The characters before the terminator. -/
  chars : List Char
  /-- The terminator is the first NUL. -/
  no_nul : '\x00' ∉ chars

/-- Behaviour the C code leaves undefined, at which a run of the model stops. -/
inductive Fault
  /-- A string was read past its terminating NUL. -/
  | overread
  /-- `start_of_month[leap][i]` was read with `i` outside `0 .. 12`. -/
  | outOfRow (leap : Bool) (i : Int)
  /-- The calls of `_strptime` nested through the formats went deeper than the
  model's fuel. -/
  | fuel
  deriving DecidableEq, Repr

/-- `r` reads no string past its terminator, and `post` holds of what it returns. -/
def Safe {α : Type} (r : Except Fault α) (post : α → Prop) : Prop :=
  match r with
  | .ok a => post a
  | .error f => f ≠ .overread

section Safe

variable {α β : Type} {r : Except Fault α} {P Q : α → Prop}

@[simp] theorem ok_bind {a : α} {f : α → Except Fault β} : (Except.ok a >>= f) = f a := rfl

theorem pure_eq_ok {a : α} : (Pure.pure a : Except Fault α) = .ok a := rfl

theorem Safe.pure {a : α} (holds : P a) : Safe (Pure.pure a : Except Fault α) P := holds

theorem Safe.error {f : Fault} (other : f ≠ .overread) : Safe (.error f : Except Fault α) P :=
  other

theorem Safe.bind {f : α → Except Fault β} {R : β → Prop} (first : Safe r P)
    (rest : ∀ a, P a → Safe (f a) R) : Safe (r >>= f) R := by
  cases r with
  | error e => exact first
  | ok a => exact rest a first

theorem Safe.mono (safe : Safe r P) (weaker : ∀ a, P a → Q a) : Safe r Q := by
  cases r with
  | error e => exact safe
  | ok a => exact weaker a safe

theorem Safe.ne_overread (safe : Safe r P) : r ≠ .error .overread := by
  rintro rfl
  exact safe rfl

theorem Safe.post (safe : Safe r P) {a : α} (ran : r = .ok a) : P a := by
  subst ran
  exact safe

end Safe

/-- `isspace` in the C locale. -/
def isspace (c : Char) : Bool :=
  c == ' ' || c == '\t' || c == '\n' || c == '\x0b' || c == '\x0c' || c == '\r'

/-- `isdigit`. -/
def isdigit (c : Char) : Bool := c.isDigit

/-- `isupper` in the C locale. -/
def isupper (c : Char) : Bool := c.isUpper

/-- `isblank` in the C locale. -/
def isblank (c : Char) : Bool := c == ' ' || c == '\t'

/-- `tolower` in the C locale, as the `int` it returns. -/
def tolower (c : Char) : Nat := if isupper c then c.toNat + 32 else c.toNat

/-- `*buf - '0'`. -/
def digitValue (c : Char) : Nat := c.toNat - '0'.toNat

@[simp] theorem isspace_nul : isspace '\x00' = false := rfl

@[simp] theorem isdigit_nul : isdigit '\x00' = false := rfl

@[simp] theorem isupper_nul : isupper '\x00' = false := rfl

theorem tolower_eq_zero {c : Char} : tolower c = 0 ↔ c = '\x00' := by
  unfold tolower
  split
  · exact ⟨fun h => absurd h (Nat.succ_ne_zero _), fun h => by subst h; simp_all⟩
  · exact ⟨fun h => by rw [← Char.ofNat_toNat c, h], fun h => by subst h; rfl⟩

namespace CStr

/-- `*p`: the character at position `p`, NUL at the terminator; past the
terminator the read is a fault. -/
def charAt (s : CStr) (p : Nat) : Except Fault Char :=
  match s.chars.drop p with
  | c :: _ => .ok c
  | [] => if p = s.chars.length then .ok '\x00' else .error .overread

theorem charAt_of_drop {s : CStr} {p : Nat} {c : Char} {rest : List Char}
    (at_p : s.chars.drop p = c :: rest) : s.charAt p = .ok c := by
  simp only [charAt, at_p]

theorem charAt_length (s : CStr) : s.charAt s.chars.length = .ok '\x00' := by
  simp [charAt]

/-- At or past the terminator a read gives NUL or a fault. -/
theorem charAt_of_drop_nil {s : CStr} {p : Nat} (at_p : s.chars.drop p = []) :
    s.charAt p = .ok '\x00' ∨ s.charAt p = .error .overread := by
  unfold charAt
  rw [at_p]
  by_cases ended : p = s.chars.length <;> simp [ended]

/-- A read at or before the terminator succeeds, and a character other than NUL
lies before it. -/
theorem charAt_safe (s : CStr) {p : Nat} (within : p ≤ s.chars.length) :
    Safe (s.charAt p) fun c => c = '\x00' ∨ p < s.chars.length := by
  unfold charAt
  split
  · next rest c more drop_eq =>
    have : p < s.chars.length := by
      by_contra past
      rw [List.drop_eq_nil_of_le (by omega)] at drop_eq
      cases drop_eq
    exact .inr this
  · rw [if_pos (by have := List.drop_eq_nil_iff.mp ‹_›; omega)]
    exact .inl rfl

/-- `while (p(*cp)) cp++` from `cp`, for a test `p` false on NUL: where `cp`
stops.  From any position there are at most `length + 1` characters to test, so
the loop's bound is reached only past the terminator. -/
def span (s : CStr) (p : Char → Bool) (cp : Nat) : Except Fault Nat :=
  go (s.chars.length + 1) cp
where
  /-- The loop with at most `n` rounds left. -/
  go : Nat → Nat → Except Fault Nat
    | 0, _ => .error .overread
    | n + 1, cp => do
      let c ← s.charAt cp
      if p c then go n (cp + 1) else pure cp

theorem span_safe (s : CStr) {p : Char → Bool} (stops : p '\x00' = false) {cp : Nat}
    (within : cp ≤ s.chars.length) :
    Safe (s.span p cp) fun e => cp ≤ e ∧ e ≤ s.chars.length := by
  suffices loop : ∀ n cp, cp ≤ s.chars.length → s.chars.length < n + cp →
      Safe (span.go s p n cp) fun e => cp ≤ e ∧ e ≤ s.chars.length from
    loop _ cp within (by omega)
  intro n
  induction n with
  | zero => intro cp within bound; omega
  | succ n ih =>
    intro cp within bound
    refine (charAt_safe s within).bind fun c read => ?_
    by_cases holds : p c
    · have before : cp < s.chars.length := read.resolve_left fun nul => by simp_all
      simp only [holds, if_true]
      exact (ih (cp + 1) before (by omega)).mono fun e ⟨lo, hi⟩ => ⟨by omega, hi⟩
    · simp only [holds]
      exact ⟨le_rfl, within⟩

/-- The loop stops at the first character from `cp` on that fails `p`. -/
theorem span_eq (s : CStr) {p : Char → Bool} (stops : p '\x00' = false) {cp : Nat}
    (within : cp ≤ s.chars.length) :
    s.span p cp = .ok (cp + ((s.chars.drop cp).takeWhile p).length) := by
  suffices loop : ∀ n cp, cp ≤ s.chars.length → s.chars.length < n + cp →
      span.go s p n cp = .ok (cp + ((s.chars.drop cp).takeWhile p).length) from
    loop _ cp within (by omega)
  intro n
  induction n with
  | zero => intro cp within bound; omega
  | succ n ih =>
    intro cp within bound
    cases drop_eq : s.chars.drop cp with
    | nil =>
      have at_end : cp = s.chars.length := by have := List.drop_eq_nil_iff.mp drop_eq; omega
      subst at_end
      simp [span.go, charAt_length, stops, pure_eq_ok]
    | cons c rest =>
      have before : cp < s.chars.length := by
        by_contra past
        rw [List.drop_eq_nil_of_le (by omega)] at drop_eq
        cases drop_eq
      have next : s.chars.drop (cp + 1) = rest := by
        rw [← List.drop_drop, drop_eq, List.drop_one, List.tail_cons]
      by_cases holds : p c
      · simp only [span.go, charAt_of_drop drop_eq, ok_bind, holds, if_true,
          ih (cp + 1) before (by omega), next, List.takeWhile_cons_of_pos holds, List.length_cons]
        congr 1
        omega
      · simp [span.go, charAt_of_drop drop_eq, holds, List.takeWhile_cons_of_neg holds, pure_eq_ok]

/-- `strncasecmp(s + p, ex, strlen(ex)) == 0` in the C locale, for the
characters `ex` of a C string. -/
def strncasecmp (s : CStr) (p : Nat) : List Char → Except Fault Bool
  | [] => pure true
  | e :: ex => do
    let c ← s.charAt p
    if tolower c = tolower e then strncasecmp s (p + 1) ex else pure false

theorem strncasecmp_safe (s : CStr) {ex : List Char} (no_nul : '\x00' ∉ ex) {p : Nat}
    (within : p ≤ s.chars.length) :
    Safe (s.strncasecmp p ex) fun same => same = true → p + ex.length ≤ s.chars.length := by
  induction ex generalizing p with
  | nil => exact Safe.pure fun _ => by simpa using within
  | cons e ex ih =>
    refine (charAt_safe s within).bind fun c read => ?_
    split
    · next same =>
      have nul : e ≠ '\x00' := fun h => no_nul (h ▸ List.mem_cons_self _ _)
      have before : p < s.chars.length := read.resolve_left fun h => by
        subst h
        exact nul (tolower_eq_zero.mp (same.symm.trans (tolower_eq_zero.mpr rfl)))
      refine (ih (fun h => no_nul (List.mem_cons_of_mem _ h)) before).mono fun _ fits same => ?_
      simp only [List.length_cons]
      have := fits same
      omega
    · exact Safe.pure fun h => by cases h

theorem drop_succ_of_drop {s : CStr} {p : Nat} {c : Char} {rest : List Char}
    (at_p : s.chars.drop p = c :: rest) : s.chars.drop (p + 1) = rest := by
  rw [← List.drop_drop, at_p, List.drop_one, List.tail_cons]

/-- The input from `p` on starts with `ex`. -/
theorem strncasecmp_append {s : CStr} {ex rest : List Char} :
    ∀ {p : Nat}, s.chars.drop p = ex ++ rest → s.strncasecmp p ex = .ok true := by
  induction ex with
  | nil => intro p _; rfl
  | cons e ex ih =>
    intro p at_p
    simp only [strncasecmp, charAt_of_drop at_p, ok_bind, if_true]
    exact ih (drop_succ_of_drop at_p)

/-- The input from `p` on is `t`, which does not start with `ex`, case aside. -/
theorem strncasecmp_not_prefix {s : CStr} {ex : List Char} (no_nul : '\x00' ∉ ex) :
    ∀ {p : Nat} {t : List Char}, p ≤ s.chars.length → s.chars.drop p = t →
      ¬ex.map tolower <+: t.map tolower → s.strncasecmp p ex = .ok false := by
  induction ex with
  | nil => intro p t _ _ differ; exact absurd List.nil_prefix differ
  | cons e ex ih =>
    intro p t within at_p differ
    have nonNul : e ≠ '\x00' := fun nul => no_nul (nul ▸ List.mem_cons_self e ex)
    cases t with
    | nil =>
      have at_end : p = s.chars.length := by have := List.drop_eq_nil_iff.mp at_p; omega
      have unequal : ¬tolower '\x00' = tolower e := fun same =>
        nonNul (tolower_eq_zero.mp (same.symm.trans (tolower_eq_zero.mpr rfl)))
      simp [strncasecmp, at_end, charAt_length, unequal, pure_eq_ok]
    | cons c t =>
      by_cases same : tolower c = tolower e
      · simp only [List.map_cons, List.cons_prefix_cons, same, true_and] at differ
        have next : p + 1 ≤ s.chars.length := by
          have := congrArg List.length at_p
          simp only [List.length_drop, List.length_cons] at this
          omega
        simp only [strncasecmp, charAt_of_drop at_p, ok_bind, same, if_true]
        exact ih (fun mem => no_nul (List.mem_cons_of_mem e mem)) next (drop_succ_of_drop at_p) differ
      · simp [strncasecmp, charAt_of_drop at_p, same, pure_eq_ok]

/-- The value of a string of decimal digits. -/
def decimalValue (ds : List Char) : Nat :=
  ds.foldl (fun i c => i * 10 + digitValue c) 0

/-- `strtol(s + p, &cp, 10)`: the value, where `cp` points, and whether `errno`
is set to `ERANGE` because the value lies outside the 64-bit `long`.  Leading
white space and a sign are skipped; without a digit nothing is converted and
`cp` is `s + p`.  On `ERANGE` the value is the one out of range, which
`_strptime` never uses. -/
def strtol (s : CStr) (p : Nat) : Except Fault (Int × Nat × Bool) := do
  let q ← s.span isspace p
  let c ← s.charAt q
  let d := if c = '-' ∨ c = '+' then q + 1 else q
  let e ← s.span isdigit d
  if e = d then pure (0, p, false)
  else
    let n : Int := decimalValue ((s.chars.drop d).take (e - d))
    let v := if c = '-' then -n else n
    pure (v, e, decide (v < -2 ^ 63 ∨ 2 ^ 63 - 1 < v))

theorem strtol_safe (s : CStr) {p : Nat} (within : p ≤ s.chars.length) :
    Safe (s.strtol p) fun r => p ≤ r.2.1 ∧ r.2.1 ≤ s.chars.length := by
  refine (span_safe s rfl within).bind fun q ⟨pq, qs⟩ => ?_
  refine (charAt_safe s qs).bind fun c read => ?_
  have signed : (if c = '-' ∨ c = '+' then q + 1 else q) ≤ s.chars.length := by
    split
    · next sign => exact read.resolve_left (by rintro rfl; simp at sign)
    · exact qs
  have qd : q ≤ if c = '-' ∨ c = '+' then q + 1 else q := by split <;> omega
  generalize (if c = '-' ∨ c = '+' then q + 1 else q) = d at signed qd ⊢
  refine (span_safe s rfl signed).bind fun e ⟨de, es⟩ => ?_
  split
  · exact Safe.pure ⟨le_rfl, within⟩
  · exact Safe.pure (show p ≤ e ∧ e ≤ s.chars.length from ⟨by omega, es⟩)

/-- `for (i = 0; len && *buf != 0 && isdigit(*buf); buf++) { i *= 10; i += *buf - '0'; len--; }`
from the value `i`: the number read and where `buf` stops. -/
def digits (s : CStr) : Nat → Nat → Nat → Except Fault (Nat × Nat)
  | 0, i, buf => pure (i, buf)
  | len + 1, i, buf => do
    let c ← s.charAt buf
    if c ≠ '\x00' ∧ isdigit c then digits s len (i * 10 + digitValue c) (buf + 1)
    else pure (i, buf)

theorem digits_safe (s : CStr) (len : Nat) {i buf : Nat} (within : buf ≤ s.chars.length) :
    Safe (s.digits len i buf) fun r => buf ≤ r.2 ∧ r.2 ≤ s.chars.length := by
  induction len generalizing i buf with
  | zero => exact ⟨le_rfl, within⟩
  | succ len ih =>
    refine (charAt_safe s within).bind fun c read => ?_
    split
    · next digit =>
      have before : buf < s.chars.length := read.resolve_left digit.1
      exact (ih before).mono fun r ⟨lo, hi⟩ => ⟨by omega, hi⟩
    · exact ⟨le_rfl, within⟩

end CStr

end Strptime
end Userland
