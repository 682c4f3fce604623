import Userland.Strptime.Inline

/-!
# The modifiers `E` and `O`

After a `%`, one `E` or `O` sets `Ealternative` or `Oalternative` and goes back to
`label`.  The directives read `Oalternative` only for a month name (`%OB` tries
the full names only, `%Ob` and `%Oh` try none), and `Ealternative` never, so at
any point of the loop a directive with one modifier has the outcomes of the
directive without it, but for `O` before `B`, `b` or `h`.  A second modifier
`break`s out of the `switch`: `%EE`, `%EO`, `%OE` and `%OO` read nothing and
end the directive, so they have the outcomes of the format without them.
-/

namespace Userland
namespace Strptime

/-- The directives other than the month names do not read `Oalternative`. -/
theorem convert_oalternative (env : Env) (input : CStr) {c : Char}
    (month : c ≠ 'B' ∧ c ≠ 'b' ∧ c ≠ 'h') (O : Bool) (l : Loc) :
    convert env input c O l = convert env input c false l := by
  unfold convert
  split <;> first | rfl | simp_all

variable {env : Env} {input : CStr}

/-- The directive `c` read at `label` with any modifiers against the same
directive with none, when it is not a month name or `O` was not given; the two
formats go on alike after it. -/
theorem scan_label_congr {c : Char} {post : List Char} {fmt fmt' : CStr} {p p' : Nat}
    (at_p : fmt.chars.drop p = c :: post) (at_p' : fmt'.chars.drop p' = c :: post)
    (plain : c ≠ 'E' ∧ c ≠ 'O') {E O : Bool} (month : O = false ∨ (c ≠ 'B' ∧ c ≠ 'b' ∧ c ≠ 'h'))
    (G : Nat) (l : Loc) :
    scan (G + 1) env input fmt p (.label E O) l = scan (G + 1) env input fmt' p' (.label false false) l := by
  have rest := CStr.drop_succ_of_drop at_p
  have rest' := CStr.drop_succ_of_drop at_p'
  have within : p + 1 ≤ fmt.chars.length ↔ p' + 1 ≤ fmt'.chars.length := by
    have long := congrArg List.length at_p
    have long' := congrArg List.length at_p'
    simp only [List.length_drop, List.length_cons] at long long'
    omega
  have same : convert env input c O l = convert env input c false l := by
    rcases month with rfl | month
    · rfl
    · exact convert_oalternative env input month O l
  rw [scan.eq_3, scan.eq_3, CStr.charAt_of_drop at_p, CStr.charAt_of_drop at_p']
  simp only [ok_bind, plain.1, plain.2, or_self, if_false, same]
  congr 1
  funext step
  cases step
  exacts [scan_congr G (rest.trans rest'.symm) within _ _, rfl]

/-- `%` and one modifier before a directive, against the directive alone. -/
theorem scan_modifier_once {m c : Char} (modifier : m = 'E' ∨ m = 'O') (plain : c ≠ 'E' ∧ c ≠ 'O')
    (month : m = 'O' → c ≠ 'B' ∧ c ≠ 'b' ∧ c ≠ 'h') {post : List Char} {fmt fmt' : CStr} {p p' : Nat}
    (at_p : fmt.chars.drop p = '%' :: m :: c :: post) (at_p' : fmt'.chars.drop p' = '%' :: c :: post)
    (G : Nat) (l : Loc) :
    scan (G + 3) env input fmt p .top l = scan (G + 2) env input fmt' p' .top l := by
  have at_m := CStr.drop_succ_of_drop at_p
  have at_c := CStr.drop_succ_of_drop at_m
  have month' : decide (m = 'O') = false ∨ (c ≠ 'B' ∧ c ≠ 'b' ∧ c ≠ 'h') := by
    by_cases oh : m = 'O'
    · exact .inr (month oh)
    · exact .inl (decide_eq_false oh)
  rw [scan_percent (CStr.charAt_of_drop at_p), scan_modifier (CStr.charAt_of_drop at_m) modifier,
    scan_percent (CStr.charAt_of_drop at_p')]
  exact scan_label_congr at_c (CStr.drop_succ_of_drop at_p') plain month' G l

/-- `%` and two modifiers: nothing is read and the loop goes on after them. -/
theorem scan_modifier_twice {m m' : Char} (modifier : m = 'E' ∨ m = 'O') (again : m' = 'E' ∨ m' = 'O')
    {post : List Char} {fmt : CStr} {p : Nat} (at_p : fmt.chars.drop p = '%' :: m :: m' :: post)
    (G : Nat) (l : Loc) :
    scan (G + 3) env input fmt p .top l = scan G env input fmt (p + 1 + 1 + 1) .top l := by
  have at_m := CStr.drop_succ_of_drop at_p
  have at_m' := CStr.drop_succ_of_drop at_m
  have set : (decide (m = 'E') || decide (m = 'O')) = true := by
    rcases modifier with rfl | rfl <;> rfl
  rw [scan_percent (CStr.charAt_of_drop at_p), scan_modifier (CStr.charAt_of_drop at_m) modifier,
    scan.eq_3, CStr.charAt_of_drop at_m']
  simp only [ok_bind, again, if_true, set]

/-! ## Outcomes -/

/-- At any point of the loop of `_strptime`, a directive after `%` and one
modifier `E` or `O` has the outcomes, running out of fuel aside, of the same
directive without the modifier, except `O` before the month names `B`, `b` and
`h`. -/
theorem strptime_modifier_ignored {m c : Char} (modifier : m = 'E' ∨ m = 'O')
    (plain : c ≠ 'E' ∧ c ≠ 'O') (month : m = 'O' → c ≠ 'B' ∧ c ≠ 'b' ∧ c ≠ 'h') {post : List Char}
    {fmt fmt' : CStr} {p p' : Nat} (at_p : fmt.chars.drop p = '%' :: m :: c :: post)
    (at_p' : fmt'.chars.drop p' = '%' :: c :: post) (l : Loc) (o : Except Fault Ret)
    (settles : o ≠ .error .fuel) :
    (∃ fuel, scan fuel env input fmt p .top l = o) ↔ (∃ fuel, scan fuel env input fmt' p' .top l = o) := by
  constructor
  · rintro ⟨fuel, ran⟩
    refine ⟨fuel + 2, ?_⟩
    rw [← scan_modifier_once modifier plain month at_p at_p']
    exact scan_add ran settles 3
  · rintro ⟨fuel, ran⟩
    refine ⟨fuel + 3, ?_⟩
    rw [scan_modifier_once modifier plain month at_p at_p']
    exact scan_add ran settles 2

/-- `%Ey` against `%y` before a literal. -/
theorem strptime_modifier_ignored_Ey :
    ('E' = 'E' ∨ 'E' = 'O') ∧ ('y' ≠ 'E' ∧ 'y' ≠ 'O') ∧ ('E' = 'O' → 'y' ≠ 'B' ∧ 'y' ≠ 'b' ∧ 'y' ≠ 'h') ∧
      (lit "%Ey!" (by decide)).chars.drop 0 = '%' :: 'E' :: 'y' :: ['!'] ∧
      (lit "%y!" (by decide)).chars.drop 0 = '%' :: 'y' :: ['!'] ∧
      (.ok ⟨some 3, ⟨0, 0, 0, 0, 0, 99, 0, 0, 0⟩, false⟩ : Except Fault Ret) ≠ .error .fuel ∧
      ((∃ fuel, scan fuel Env.blank (lit "99!" (by decide)) (lit "%Ey!" (by decide)) 0 .top
          (Loc.init 0 ⟨0, 0, 0, 0, 0, 0, 0, 0, 0⟩ false) = .ok ⟨some 3, ⟨0, 0, 0, 0, 0, 99, 0, 0, 0⟩, false⟩) ↔
        ∃ fuel, scan fuel Env.blank (lit "99!" (by decide)) (lit "%y!" (by decide)) 0 .top
          (Loc.init 0 ⟨0, 0, 0, 0, 0, 0, 0, 0, 0⟩ false) = .ok ⟨some 3, ⟨0, 0, 0, 0, 0, 99, 0, 0, 0⟩, false⟩) :=
  ⟨.inl rfl, by decide, by decide, rfl, rfl, nofun,
    @strptime_modifier_ignored Env.blank _ 'E' 'y' (.inl rfl) (by decide) (by decide) ['!']
      (lit "%Ey!" (by decide)) (lit "%y!" (by decide)) 0 0 rfl rfl _ _ nofun⟩

/-- At any point of the loop of `_strptime`, `%` followed by two modifiers (`%EE`,
`%EO`, `%OE`, `%OO`) reads no input and has the outcomes, running out of fuel
aside, of the format without those three characters. -/
theorem strptime_doubled_modifier_skipped {m m' : Char} (modifier : m = 'E' ∨ m = 'O')
    (again : m' = 'E' ∨ m' = 'O') {post : List Char} {fmt fmt' : CStr} {p p' : Nat}
    (at_p : fmt.chars.drop p = '%' :: m :: m' :: post) (at_p' : fmt'.chars.drop p' = post)
    (within' : p' ≤ fmt'.chars.length) (l : Loc) (o : Except Fault Ret) (settles : o ≠ .error .fuel) :
    (∃ fuel, scan fuel env input fmt p .top l = o) ↔ (∃ fuel, scan fuel env input fmt' p' .top l = o) := by
  have rest : fmt.chars.drop (p + 1 + 1 + 1) = fmt'.chars.drop p' := by
    rw [CStr.drop_succ_of_drop (CStr.drop_succ_of_drop (CStr.drop_succ_of_drop at_p)), at_p']
  have within : p + 1 + 1 + 1 ≤ fmt.chars.length ↔ p' ≤ fmt'.chars.length := by
    have long := congrArg List.length at_p
    simp only [List.length_drop, List.length_cons] at long
    omega
  have skip : ∀ G, scan (G + 3) env input fmt p .top l = scan G env input fmt' p' .top l := fun G => by
    rw [scan_modifier_twice modifier again at_p, scan_congr G rest within]
  constructor
  · rintro ⟨fuel, ran⟩
    exact ⟨fuel, by rw [← skip, ← scan_add ran settles 3]⟩
  · rintro ⟨fuel, ran⟩
    exact ⟨fuel + 3, by rw [skip]; exact ran⟩

example : scan 5 Env.blank (lit "Y" (by decide)) (lit "%EEY" (by decide)) 0 .top
    (Loc.init 0 ⟨0, 0, 0, 0, 0, 0, 0, 0, 0⟩ false) = .ok ⟨some 1, ⟨0, 0, 0, 0, 0, 0, 0, 0, 0⟩, false⟩ := rfl

/-- `%EEY` against `Y`. -/
theorem strptime_doubled_modifier_skipped_EE :
    ('E' = 'E' ∨ 'E' = 'O') ∧ ('E' = 'E' ∨ 'E' = 'O') ∧
      (lit "%EEY" (by decide)).chars.drop 0 = '%' :: 'E' :: 'E' :: ['Y'] ∧
      (lit "Y" (by decide)).chars.drop 0 = ['Y'] ∧ 0 ≤ (lit "Y" (by decide)).chars.length ∧
      (.ok ⟨some 1, ⟨0, 0, 0, 0, 0, 0, 0, 0, 0⟩, false⟩ : Except Fault Ret) ≠ .error .fuel ∧
      ((∃ fuel, scan fuel Env.blank (lit "Y" (by decide)) (lit "%EEY" (by decide)) 0 .top
          (Loc.init 0 ⟨0, 0, 0, 0, 0, 0, 0, 0, 0⟩ false) = .ok ⟨some 1, ⟨0, 0, 0, 0, 0, 0, 0, 0, 0⟩, false⟩) ↔
        ∃ fuel, scan fuel Env.blank (lit "Y" (by decide)) (lit "Y" (by decide)) 0 .top
          (Loc.init 0 ⟨0, 0, 0, 0, 0, 0, 0, 0, 0⟩ false) = .ok ⟨some 1, ⟨0, 0, 0, 0, 0, 0, 0, 0, 0⟩, false⟩) :=
  ⟨.inl rfl, .inl rfl, rfl, rfl, Nat.zero_le _, nofun,
    @strptime_doubled_modifier_skipped Env.blank _ 'E' 'E' (.inl rfl) (.inl rfl) ['Y']
      (lit "%EEY" (by decide)) (lit "Y" (by decide)) 0 0 rfl rfl (Nat.zero_le _) _ _ nofun⟩

end Strptime
end Userland
