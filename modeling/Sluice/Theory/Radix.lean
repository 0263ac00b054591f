/-
# Theory.Radix -- numerals with their leading zeros

A numeral is a list of digits, the most significant first.  Its value forgets the leading
zeros, and nothing else: value and number of leading zeros together give the numeral back
(`shortest_value`, `zeros_append_significant`).

`recode a b` reads a numeral in base `a` and writes it in base `b`, zeros included; going
there and back is the identity (`recode_recode`), so recoding is a bijection between the
numerals of the two bases, of any length and the empty one included.

`fixed` writes a number with a given number of digits; if it fits, nothing is lost
(`value_fixed`).
-/
import Mathlib.Data.Nat.Digits.Lemmas

namespace Sluice.Theory.Radix

set_option autoImplicit false

/-- The number a list of digits denotes. -/
def value (base : Nat) (digits : List Nat) : Nat := Nat.ofDigits base digits.reverse

/-- The numeral of a number without leading zeros; zero has no digits. -/
def shortest (base n : Nat) : List Nat := (Nat.digits base n).reverse

def significant (digits : List Nat) : List Nat := digits.dropWhile (· = 0)

/-- How many zeros a numeral begins with. -/
def zeros (digits : List Nat) : Nat := digits.length - (significant digits).length

def IsNumeral (base : Nat) (digits : List Nat) : Prop := ∀ d ∈ digits, d < base

/-- The numeral in another base, with as many leading zeros. -/
def recode (source target : Nat) (digits : List Nat) : List Nat :=
  List.replicate (zeros digits) 0 ++ shortest target (value source digits)

/-- The last `width` digits of a number, leading zeros included. -/
def fixed (base : Nat) : Nat → Nat → List Nat
  | 0, _ => []
  | width + 1, n => fixed base width (n / base) ++ [n % base]

section Zeros

variable {digits : List Nat}

@[simp] theorem significant_zero_cons : significant (0 :: digits) = significant digits := by
  simp [significant]

theorem significant_cons {d : Nat} (some_ : d ≠ 0) : significant (d :: digits) = d :: digits := by
  simp [significant, some_]

theorem length_significant_le (digits : List Nat) : (significant digits).length ≤ digits.length :=
  (List.dropWhile_sublist _).length_le

/-- A numeral is its zeros and its significant digits. -/
theorem zeros_append_significant (digits : List Nat) :
    List.replicate (zeros digits) 0 ++ significant digits = digits := by
  induction digits with
  | nil => rfl
  | cons d digits ih =>
      by_cases zero : d = 0
      · subst zero
        have le := length_significant_le digits
        have count : zeros (0 :: digits) = zeros digits + 1 := by
          simp only [zeros, significant_zero_cons, List.length_cons]
          omega
        rw [count, significant_zero_cons, List.replicate_succ, List.cons_append, ih]
      · have none_ : zeros (d :: digits) = 0 := by
          simp [zeros, significant_cons zero]
        rw [none_, significant_cons zero]
        rfl

theorem significant_replicate_append (n : Nat) (digits : List Nat) :
    significant (List.replicate n 0 ++ digits) = significant digits := by
  induction n with
  | zero => rfl
  | succ n ih => rw [List.replicate_succ, List.cons_append, significant_zero_cons, ih]

theorem zeros_replicate_append {n : Nat} (trimmed : significant digits = digits) :
    zeros (List.replicate n 0 ++ digits) = n := by
  rw [zeros, significant_replicate_append, trimmed, List.length_append, List.length_replicate]
  omega

/-- The significant digits do not begin with a zero. -/
theorem significant_idem (digits : List Nat) :
    significant (significant digits) = significant digits := by
  induction digits with
  | nil => rfl
  | cons d digits ih =>
      by_cases zero : d = 0
      · rw [zero, significant_zero_cons, ih]
      · rw [significant_cons zero, significant_cons zero]

end Zeros

section Values

variable {base : Nat} {digits : List Nat}

@[simp] theorem value_nil : value base [] = 0 := rfl

theorem value_append (base : Nat) (digits more : List Nat) :
    value base (digits ++ more) = value base digits * base ^ more.length + value base more := by
  rw [value, List.reverse_append, Nat.ofDigits_append, List.length_reverse, Nat.add_comm,
    Nat.mul_comm]
  rfl

theorem value_singleton (base d : Nat) : value base [d] = d := Nat.ofDigits_singleton

theorem value_cons (base d : Nat) (digits : List Nat) :
    value base (d :: digits) = d * base ^ digits.length + value base digits := by
  rw [← List.singleton_append, value_append, value_singleton]

/-- Horner's rule. -/
theorem foldl_eq_value (base : Nat) (digits : List Nat) (start : Nat) :
    digits.foldl (fun num d => num * base + d) start =
      start * base ^ digits.length + value base digits := by
  induction digits generalizing start with
  | nil => simp
  | cons d digits ih =>
      rw [List.foldl_cons, ih, value_cons, List.length_cons, Nat.pow_succ]
      ring

theorem value_lt (big : 1 < base) (numeral : IsNumeral base digits) :
    value base digits < base ^ digits.length := by
  rw [← List.length_reverse]
  exact Nat.ofDigits_lt_base_pow_length big fun d member => numeral d (List.mem_reverse.mp member)

theorem value_replicate_zero (base n : Nat) : value base (List.replicate n 0) = 0 := by
  induction n with
  | zero => rfl
  | succ n ih => rw [List.replicate_succ, value_cons, ih, Nat.zero_mul]

theorem value_significant (base : Nat) (digits : List Nat) :
    value base (significant digits) = value base digits := by
  conv_rhs => rw [← zeros_append_significant digits]
  rw [value_append, value_replicate_zero, Nat.zero_mul, Nat.zero_add]

theorem value_shortest (base n : Nat) : value base (shortest base n) = n := by
  rw [value, shortest, List.reverse_reverse, Nat.ofDigits_digits]

theorem shortest_isNumeral (big : 1 < base) (n : Nat) : IsNumeral base (shortest base n) :=
  fun _ member => Nat.digits_lt_base big (List.mem_reverse.mp member)

theorem significant_isNumeral (numeral : IsNumeral base digits) :
    IsNumeral base (significant digits) :=
  fun d member => numeral d ((List.dropWhile_sublist _).subset member)

/-- The value determines the significant digits. -/
theorem shortest_value (big : 1 < base) (numeral : IsNumeral base digits) :
    shortest base (value base digits) = significant digits := by
  rw [← value_significant, shortest, value, Nat.digits_ofDigits base big, List.reverse_reverse]
  · exact fun d member => significant_isNumeral numeral d (List.mem_reverse.mp member)
  · intro some_ last
    rw [List.getLast_reverse] at last
    cases trimmed : significant digits with
    | nil => simp [trimmed] at some_
    | cons d rest =>
        have again := significant_idem digits
        simp only [trimmed, List.head_cons] at last
        rw [trimmed, last, significant_zero_cons] at again
        have shorter := length_significant_le rest
        rw [again, List.length_cons] at shorter
        omega

theorem significant_shortest (big : 1 < base) (n : Nat) :
    significant (shortest base n) = shortest base n := by
  rw [← shortest_value big (shortest_isNumeral big n), value_shortest]

/-- Numerals of one value have the same significant digits. -/
theorem significant_eq_of_value_eq {digits' : List Nat} (big : 1 < base)
    (numeral : IsNumeral base digits) (numeral' : IsNumeral base digits')
    (same : value base digits = value base digits') : significant digits = significant digits' := by
  rw [← shortest_value big numeral, ← shortest_value big numeral', same]

theorem eq_of_value_eq {digits' : List Nat} (big : 1 < base)
    (numeral : IsNumeral base digits) (numeral' : IsNumeral base digits')
    (long : digits.length = digits'.length) (same : value base digits = value base digits') :
    digits = digits' := by
  have tail := significant_eq_of_value_eq big numeral numeral' same
  have pad : zeros digits = zeros digits' := by rw [zeros, zeros, long, tail]
  rw [← zeros_append_significant digits, pad, tail, zeros_append_significant]

/-- How long the shortest numeral is. -/
theorem length_shortest {n k : Nat} (big : 1 < base) (low : base ^ k ≤ n)
    (high : n < base ^ (k + 1)) :
    (shortest base n).length = k + 1 := by
  rw [shortest, List.length_reverse]
  have le := (Nat.digits_length_le_iff big n).mpr high
  have lt := (Nat.lt_digits_length_iff big n).mpr low
  omega

end Values

section Recode

variable {source target : Nat} {digits : List Nat}

theorem recode_isNumeral (big : 1 < target) (digits : List Nat) :
    IsNumeral target (recode source target digits) := by
  intro d member
  rcases List.mem_append.mp member with zero | significant
  · rw [List.eq_of_mem_replicate zero]
    exact Nat.zero_lt_of_lt big
  · exact shortest_isNumeral big _ d significant

/-- **There and back.**  No numeral is lost, whatever zeros it begins with. -/
theorem recode_recode (small : 1 < source) (big : 1 < target) (numeral : IsNumeral source digits) :
    recode target source (recode source target digits) = digits := by
  have trimmed := significant_shortest big (value source digits)
  have there : value target (recode source target digits) = value source digits := by
    rw [recode, value_append, value_replicate_zero, Nat.zero_mul, Nat.zero_add, value_shortest]
  calc recode target source (recode source target digits)
      = List.replicate (zeros digits) 0 ++ shortest source (value source digits) := by
        rw [recode, there, recode, zeros_replicate_append trimmed]
    _ = List.replicate (zeros digits) 0 ++ significant digits := by
        rw [shortest_value small numeral]
    _ = digits := zeros_append_significant digits

end Recode

section Fixed

variable {base : Nat}

@[simp] theorem length_fixed (base width n : Nat) : (fixed base width n).length = width := by
  induction width generalizing n with
  | zero => rfl
  | succ width ih => rw [fixed, List.length_append, ih, List.length_singleton]

theorem fixed_isNumeral (pos : 0 < base) (width n : Nat) : IsNumeral base (fixed base width n) := by
  induction width generalizing n with
  | zero => exact fun d member => by cases member
  | succ width ih =>
      intro d member
      rcases List.mem_append.mp member with high | low
      · exact ih _ d high
      · rw [List.mem_singleton.mp low]
        exact Nat.mod_lt n pos

/-- A number that fits is the value of its digits. -/
theorem value_fixed {width n : Nat} (fits : n < base ^ width) :
    value base (fixed base width n) = n := by
  induction width generalizing n with
  | zero => exact (Nat.lt_one_iff.mp fits).symm
  | succ width ih =>
      have high : n / base < base ^ width := by
        rw [Nat.pow_succ, Nat.mul_comm] at fits
        exact Nat.div_lt_of_lt_mul fits
      rw [fixed, value_append, ih high, value_singleton, List.length_singleton, Nat.pow_one,
        Nat.mul_comm]
      exact Nat.div_add_mod n base

end Fixed

end Sluice.Theory.Radix
