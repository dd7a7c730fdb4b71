import ApiReport.CommandLine
import Mathlib.Data.List.Infix

/-!
# What arguments ask for

A value does not start like a flag. So in arguments that are accepted, every occurrence of a flag is
one that takes a value, and the last of them gives what holds; and the flags for a check and for
help ask for them wherever they stand.

Key definitions: `CommandLine.lastValue?`.
Key theorems: `CommandLine.get?_parseFrom`, `CommandLine.check_parse`, `CommandLine.help_parse`.
-/
namespace ApiReport.CommandLine

open Settings

variable {output key : Key} {argument flag next : String} {flag? : Option String}
  {rest arguments : List String} {o o' : Options}

/-- The argument behind the last occurrence of a flag that an argument follows. -/
def lastValue? (flag : String) : List String → Option String
  | [] => none
  | argument :: rest =>
    (lastValue? flag rest).or (if argument = flag then rest.head? else none)

theorem lastValue?_cons_of_ne (h : argument ≠ flag) :
    lastValue? flag (argument :: rest) = lastValue? flag rest := by
  rw [lastValue?, if_neg h, Option.or_none]

theorem lastValue?_cons_cons (h : next ≠ flag) :
    lastValue? flag (flag :: next :: rest) = (lastValue? flag rest).or (some next) := by
  rw [lastValue?, if_pos rfl, List.head?_cons, lastValue?_cons_of_ne h]

theorem bind_lastValue?_cons (h : flag? ≠ some argument) :
    flag?.bind (lastValue? · (argument :: rest)) = flag?.bind (lastValue? · rest) := by
  cases flag? with
  | none => rfl
  | some flag => exact lastValue?_cons_of_ne fun heq => h (congrArg some heq.symm)

/-- A flag that takes a value is no value. -/
theorem isValue_of_valueKey? (h : valueKey? output flag = some key) : isValue flag = false := by
  unfold valueKey? at h
  split at h
  case h_7 => cases h
  all_goals decide

theorem value_ne_null (key : Key) (argument : String) : value key argument ≠ .null := by
  unfold value
  split
  · exact fun h => by cases h
  · exact fun h => by cases h

/-- What arguments give for a setting: what the last occurrence of its flag gives, if it has one, or
else what was given before. -/
theorem get?_parseFrom
    (hflag : ∀ argument, valueKey? output argument = some key ↔ flag? = some argument)
    (h : parseFrom output o arguments = .ok o') :
    o'.given.get? key =
      ((flag?.bind (lastValue? · arguments)).map (value key)).or (o.given.get? key) := by
  have hother : ∀ {argument}, valueKey? output argument = none → flag? ≠ some argument := by
    intro argument hnone hsome
    rw [(hflag argument).2 hsome] at hnone
    cases hnone
  fun_induction parseFrom output o arguments with
  | case1 o =>
    cases h
    cases flag? <;> rfl
  | case2 o rest ih =>
    rw [bind_lastValue?_cons (hother rfl)]
    exact ih h
  | case3 o rest ih =>
    rw [bind_lastValue?_cons (hother rfl)]
    exact ih h
  | case4 o rest ih =>
    rw [bind_lastValue?_cons (hother rfl)]
    exact ih h
  | case5 o argument _ _ _ k hk next rest hvalue ih =>
    have hnext : flag? ≠ some next := by
      intro hsome
      rw [isValue_of_valueKey? ((hflag next).2 hsome)] at hvalue
      cases hvalue
    rw [ih h, Given.get?_set]
    by_cases hkey : key = k
    · -- the flag of the setting, with its value
      subst hkey
      obtain rfl : flag? = some argument := (hflag argument).1 hk
      have hne : next ≠ argument := fun heq => hnext (congrArg some heq.symm)
      rw [if_pos rfl, Option.bind_some, Option.bind_some, lastValue?_cons_cons hne]
      cases lastValue? argument rest <;> rfl
    · have hargument : flag? ≠ some argument := by
        intro hsome
        rw [(hflag argument).2 hsome] at hk
        exact hkey (Option.some.inj hk)
      rw [if_neg hkey, bind_lastValue?_cons hargument, bind_lastValue?_cons hnext]
  | case6 => cases h
  | case7 => cases h
  | case8 => cases h
  | case9 o argument rest _ _ _ hk _ ih =>
    rw [bind_lastValue?_cons (hother hk)]
    exact ih h

/-! ### Flags without a value -/

theorem ne_of_isValue (h : isValue next = true) (hflag : ['-', '-'].isPrefixOf flag.toList = true) :
    flag ≠ next := by
  rintro rfl
  rw [isValue, hflag] at h
  simp at h

/-- Arguments that are accepted ask for a check if they hold its flag. -/
theorem check_parseFrom (h : parseFrom output o arguments = .ok o') :
    o'.check = true ↔ o.check = true ∨ "--check" ∈ arguments := by
  fun_induction parseFrom output o arguments with
  | case1 o =>
    cases h
    simp
  | case2 o rest ih =>
    rw [ih h]
    simp
  | case3 o rest ih =>
    rw [ih h]
    simp
  | case4 o rest ih =>
    rw [ih h]
    simp
  | case5 o argument hcheck _ _ k hk next rest hvalue ih =>
    have hnext : "--check" ≠ next := ne_of_isValue hvalue (by decide)
    rw [ih h]
    simp [Ne.symm hcheck, hnext]
  | case6 => cases h
  | case7 => cases h
  | case8 => cases h
  | case9 o argument rest hcheck _ _ hk _ ih =>
    rw [ih h]
    simp [Ne.symm hcheck]

/-- Arguments that are accepted ask for help if they hold its flag. -/
theorem help_parseFrom (h : parseFrom output o arguments = .ok o')
    (hhelp : o.help = true ∨ "--help" ∈ arguments) : o'.help = true := by
  fun_induction parseFrom output o arguments with
  | case1 o =>
    cases h
    simpa using hhelp
  | case2 o rest ih => exact ih h (by simpa using hhelp)
  | case3 o rest ih => exact ih h (.inl rfl)
  | case4 o rest ih => exact ih h (.inl rfl)
  | case5 o argument _ hflag _ k hk next rest hvalue ih =>
    have hnext : "--help" ≠ next := ne_of_isValue hvalue (by decide)
    exact ih h (by simpa [Ne.symm hflag, hnext] using hhelp)
  | case6 => cases h
  | case7 => cases h
  | case8 => cases h
  | case9 o argument rest _ hflag _ hk _ ih => exact ih h (by simpa [Ne.symm hflag] using hhelp)

theorem check_parse (h : parse output arguments = .ok o) :
    o.check = true ↔ "--check" ∈ arguments := by
  rw [check_parseFrom h]
  simp

theorem help_parse (h : parse output arguments = .ok o) (hhelp : "--help" ∈ arguments) :
    o.help = true :=
  help_parseFrom h (.inr hhelp)

end ApiReport.CommandLine
