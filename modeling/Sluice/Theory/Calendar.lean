/-
# Theory.Calendar -- days and dates of the proleptic Gregorian calendar

Days are counted from 1 January of the year 1, which is day 1.  `ord2ymd` finds the date of a
day by taking away cycles of 400, 100, 4 and 1 years, and guesses the month from the day of the
year.  `ord2ymd_spec`: the date it finds is the date of that day.
-/
import Mathlib.Data.List.GetD

namespace Sluice.Theory.Calendar

set_option autoImplicit false

def isLeap (year : Nat) : Bool := year % 4 = 0 && (year % 100 ≠ 0 || year % 400 = 0)

/-- Days before 1 January of the year. -/
def daysBeforeYear (year : Nat) : Nat :=
  (year - 1) * 365 + (year - 1) / 4 - (year - 1) / 100 + (year - 1) / 400

def daysInMonth (leap : Bool) (month : Nat) : Nat :=
  if month = 2 && leap then 29
  else [0, 31, 28, 31, 30, 31, 30, 31, 31, 30, 31, 30, 31].getD month 0

/-- Days of the year before the first of the month. -/
def daysBeforeMonth (leap : Bool) (month : Nat) : Nat :=
  [0, 0, 31, 59, 90, 120, 151, 181, 212, 243, 273, 304, 334].getD month 0 +
    if month > 2 && leap then 1 else 0

def ymd2ord (year month day : Nat) : Nat :=
  daysBeforeYear year + daysBeforeMonth (isLeap year) month + day

/-- Month and day of the month, from the day of the year counted from 0. -/
def monthDay (leap : Bool) (n : Nat) : Nat × Nat :=
  let month := (n + 50) / 32
  -- the guess is right or one too many
  let month := if daysBeforeMonth leap month > n then month - 1 else month
  (month, n - daysBeforeMonth leap month + 1)

def ord2ymd (day : Nat) : Nat × Nat × Nat :=
  let n400 := (day - 1) / 146097
  let n := (day - 1) % 146097
  let n100 := n / 36524
  let n := n % 36524
  let n4 := n / 1461
  let n := n % 1461
  let n1 := n / 365
  let n := n % 365
  let year := n400 * 400 + 1 + (n100 * 100 + n4 * 4 + n1)
  if n1 = 4 ∨ n100 = 4 then (year - 1, 12, 31)
  else (year, monthDay (n1 = 3 && (n4 ≠ 24 || n100 = 3)) n)

/-- There is such a date. -/
def IsDate (year month day : Nat) : Prop :=
  1 ≤ year ∧ (1 ≤ month ∧ month ≤ 12) ∧ 1 ≤ day ∧ day ≤ daysInMonth (isLeap year) month

instance (year month day : Nat) : Decidable (IsDate year month day) := by
  unfold IsDate
  infer_instance

theorem daysInMonth_le :
    ∀ (leap : Bool) (month : Nat), month ≤ 12 → daysInMonth leap month ≤ 31 := by
  decide

/-- The month found is the month of that day, in either kind of year. -/
theorem monthDay_spec : ∀ (leap : Bool) (n : Nat), n < 365 →
    (1 ≤ (monthDay leap n).1 ∧ (monthDay leap n).1 ≤ 12) ∧
    (1 ≤ (monthDay leap n).2 ∧ (monthDay leap n).2 ≤ daysInMonth leap (monthDay leap n).1) ∧
    daysBeforeMonth leap (monthDay leap n).1 + (monthDay leap n).2 = n + 1 := by
  decide +kernel

section Years

variable {n400 n100 n4 n1 : Nat}

/-- Years counted in cycles. -/
theorem daysBeforeYear_cycles (century : n100 ≤ 3) (four : n4 ≤ 24) (one : n1 ≤ 3) :
    daysBeforeYear (n400 * 400 + 1 + (n100 * 100 + n4 * 4 + n1)) =
      146097 * n400 + 36524 * n100 + 1461 * n4 + 365 * n1 := by
  unfold daysBeforeYear
  omega

theorem isLeap_cycles (century : n100 ≤ 3) (four : n4 ≤ 24) (one : n1 ≤ 3) :
    isLeap (n400 * 400 + 1 + (n100 * 100 + n4 * 4 + n1)) =
      (decide (n1 = 3) && (decide (n4 ≠ 24) || decide (n100 = 3))) := by
  unfold isLeap
  rw [Bool.eq_iff_iff]
  simp only [Bool.and_eq_true, Bool.or_eq_true, decide_eq_true_eq]
  omega

end Years

/-- What the cycles leave of a day, and the two days they do not fit. -/
theorem ord2ymd_cases (day : Nat) (counted : 1 ≤ day) :
    (∃ n400 n100 n4 n1 n, n100 ≤ 3 ∧ n4 ≤ 24 ∧ n1 ≤ 3 ∧ n < 365 ∧
      day = 146097 * n400 + 36524 * n100 + 1461 * n4 + 365 * n1 + n + 1 ∧
      ord2ymd day = (n400 * 400 + 1 + (n100 * 100 + n4 * 4 + n1),
        monthDay (n1 = 3 && (n4 ≠ 24 || n100 = 3)) n)) ∨
    ∃ n400 n100 n4 n1, n100 ≤ 3 ∧ n4 ≤ 24 ∧ n1 = 3 ∧ (n4 ≠ 24 ∨ n100 = 3) ∧
      day = 146097 * n400 + 36524 * n100 + 1461 * n4 + 365 * n1 + 366 ∧
      ord2ymd day = (n400 * 400 + 1 + (n100 * 100 + n4 * 4 + n1), 12, 31) := by
  by_cases last : (day - 1) % 146097 % 36524 % 1461 / 365 = 4 ∨ (day - 1) % 146097 / 36524 = 4
  · right
    have found : ord2ymd day = ((day - 1) / 146097 * 400 + 1 + ((day - 1) % 146097 / 36524 * 100 +
        (day - 1) % 146097 % 36524 / 1461 * 4 + (day - 1) % 146097 % 36524 % 1461 / 365) - 1,
        12, 31) := if_pos last
    by_cases era : (day - 1) % 146097 / 36524 = 4
    · -- the last day of 400 years
      refine ⟨(day - 1) / 146097, 3, 24, 3, by omega, by omega, rfl, .inr rfl, by omega, ?_⟩
      rw [found]
      congr 1
      omega
    · -- the last day of four years
      refine ⟨(day - 1) / 146097, (day - 1) % 146097 / 36524, (day - 1) % 146097 % 36524 / 1461, 3,
        by omega, by omega, rfl, by omega, by omega, ?_⟩
      rw [found]
      congr 1
      omega
  · left
    have found : ord2ymd day = ((day - 1) / 146097 * 400 + 1 + ((day - 1) % 146097 / 36524 * 100 +
        (day - 1) % 146097 % 36524 / 1461 * 4 + (day - 1) % 146097 % 36524 % 1461 / 365),
        monthDay ((day - 1) % 146097 % 36524 % 1461 / 365 = 3 &&
          ((day - 1) % 146097 % 36524 / 1461 ≠ 24 || (day - 1) % 146097 / 36524 = 3))
          ((day - 1) % 146097 % 36524 % 1461 % 365)) := if_neg last
    refine ⟨(day - 1) / 146097, (day - 1) % 146097 / 36524, (day - 1) % 146097 % 36524 / 1461,
      (day - 1) % 146097 % 36524 % 1461 / 365, (day - 1) % 146097 % 36524 % 1461 % 365,
      by omega, by omega, by omega, by omega, by omega, found⟩

/-- **The date of a day** is a date, and the day of that date. -/
theorem ord2ymd_spec (day : Nat) (counted : 1 ≤ day) :
    IsDate (ord2ymd day).1 (ord2ymd day).2.1 (ord2ymd day).2.2 ∧
      ymd2ord (ord2ymd day).1 (ord2ymd day).2.1 (ord2ymd day).2.2 = day := by
  rcases ord2ymd_cases day counted with
    ⟨n400, n100, n4, n1, n, century, four, one, within, same, found⟩ |
    ⟨n400, n100, n4, n1, century, four, one, leap, same, found⟩
  · obtain ⟨month, date, sum⟩ := monthDay_spec (n1 = 3 && (n4 ≠ 24 || n100 = 3)) n within
    rw [found]
    refine ⟨⟨by dsimp only; omega, month, ?_⟩, ?_⟩
    · rw [isLeap_cycles century four one]
      exact date
    · rw [ymd2ord, daysBeforeYear_cycles century four one, isLeap_cycles century four one]
      dsimp only
      omega
  · have leaps : isLeap (n400 * 400 + 1 + (n100 * 100 + n4 * 4 + n1)) = true := by
      rw [isLeap_cycles century four (by omega)]
      simpa [one] using leap
    rw [found]
    refine ⟨⟨by dsimp only; omega, by simp, ?_⟩, ?_⟩
    · dsimp only
      rw [leaps]
      decide
    · dsimp only
      rw [ymd2ord, daysBeforeYear_cycles century four (by omega), leaps, same]
      rfl

/-- Four digits are enough for the first 3652059 days. -/
theorem year_le (day : Nat) (counted : 1 ≤ day) (within : day ≤ 3652059) :
    (ord2ymd day).1 ≤ 9999 := by
  rcases ord2ymd_cases day counted with
    ⟨n400, n100, n4, n1, n, _, _, _, _, same, found⟩ | ⟨n400, n100, n4, n1, _, _, _, _, same, found⟩
  · rw [found]
    dsimp only
    omega
  · rw [found]
    dsimp only
    omega

end Sluice.Theory.Calendar
