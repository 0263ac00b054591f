/-
# Kernel.Money -- amounts are exact

What the two functions of `money.py` are for.  A `Decimal` is a numeral as people write it,
with digits before a point and perhaps after it; it denotes the rational `amount`.  The regular
expression accepts the texts of decimals and nothing else (`matchAmount_text`,
`decimal_of_matchAmount`), and `units` is the amount with the point moved (`units_eq`).

Formatting writes the decimal `human`, whose units are those given (`human_units`) and which
has no zero that could be left out (`human_plain`); such a decimal is determined by its amount
(`Plain.unique`).  Above the interpreter's digit limit both functions raise, so the limit stands
in every statement.
-/
import Mathlib.Algebra.Order.Field.Rat
import Mathlib.Tactic.FieldSimp
import Mathlib.Tactic.Ring
import Sluice.Kernel.Intake
import Sluice.Theory.Radix

namespace Sluice.Kernel

open Sluice.Theory Sluice.Theory.Radix

set_option autoImplicit false

/-! ## Digit strings -/

def digitValues (digits : List Char) : List Nat := digits.map fun c => c.toNat - '0'.toNat

def AllDigits (digits : List Char) : Prop := ∀ c ∈ digits, isAsciiDigit c = true

section Digits

variable {digits digits' : List Char}

theorem ofDigitChars_eq_value (digits : List Char) :
    Nat.ofDigitChars 10 digits 0 = value 10 (digitValues digits) := by
  have horner := foldl_eq_value 10 (digitValues digits) 0
  rw [Nat.zero_mul, Nat.zero_add] at horner
  rw [Nat.ofDigitChars_eq_foldl, ← horner, digitValues, List.foldl_map]
  simp only [Nat.mul_comm]

theorem AllDigits.isNumeral (plain : AllDigits digits) : IsNumeral 10 (digitValues digits) := by
  intro d member
  obtain ⟨c, present, rfl⟩ := List.mem_map.mp member
  have range := plain c present
  simp only [isAsciiDigit, Bool.and_eq_true, decide_eq_true_eq] at range
  show c.toNat - 48 < 10
  omega

/-- A digit string is determined by the values of its digits. -/
theorem AllDigits.ext (plain : AllDigits digits) (plain' : AllDigits digits')
    (same : digitValues digits = digitValues digits') : digits = digits' := by
  have undo : ∀ {l : List Char}, AllDigits l →
      (digitValues l).map (fun d => Char.ofNat (d + 48)) = l := by
    intro l only
    rw [digitValues, List.map_map]
    refine (List.map_congr_left fun c member => ?_).trans (List.map_id _)
    have range := only c member
    simp only [isAsciiDigit, Bool.and_eq_true, decide_eq_true_eq] at range
    have back : c.toNat - 48 + 48 = c.toNat := by omega
    show Char.ofNat (c.toNat - 48 + 48) = c
    rw [back, Char.ofNat_toNat]
  rw [← undo plain, same, undo plain']

theorem AllDigits.append (plain : AllDigits digits) (plain' : AllDigits digits') :
    AllDigits (digits ++ digits') := by
  intro c member
  exact (List.mem_append.mp member).elim (plain c) (plain' c)

theorem allDigits_replicate (n : Nat) : AllDigits (List.replicate n '0') := by
  intro c member
  rw [List.eq_of_mem_replicate member]
  rfl

theorem allDigits_toDigits (n : Nat) : AllDigits (Nat.toDigits 10 n) := by
  intro c member
  have range := toNat_of_isDigit (Nat.isDigit_of_mem_toDigits (by decide) (by decide) member)
  simp only [isAsciiDigit, Bool.and_eq_true, decide_eq_true_eq]
  exact range

/-- Digit strings of one length and value are one. -/
theorem AllDigits.eq_of_value_eq (plain : AllDigits digits) (plain' : AllDigits digits')
    (long : digits.length = digits'.length)
    (same : Nat.ofDigitChars 10 digits 0 = Nat.ofDigitChars 10 digits' 0) : digits = digits' := by
  rw [ofDigitChars_eq_value, ofDigitChars_eq_value] at same
  have values := Radix.eq_of_value_eq (by decide) plain.isNumeral plain'.isNumeral
    (by rw [digitValues, digitValues, List.length_map, List.length_map, long]) same
  exact plain.ext plain' values

theorem AllDigits.lt (plain : AllDigits digits) :
    Nat.ofDigitChars 10 digits 0 < 10 ^ digits.length := by
  have below := value_lt (by decide) plain.isNumeral
  rwa [← ofDigitChars_eq_value, digitValues, List.length_map] at below

theorem length_padRight {width : Nat} (short : digits.length ≤ width) :
    (padRight width digits).length = width := by
  rw [padRight, List.length_append, List.length_replicate]
  omega

theorem value_padRight (width : Nat) (digits : List Char) :
    Nat.ofDigitChars 10 (padRight width digits) 0 =
      Nat.ofDigitChars 10 digits 0 * 10 ^ (width - digits.length) := by
  rw [padRight, Nat.ofDigitChars_append, Nat.ofDigitChars_replicate_zero, Nat.mul_comm]

theorem AllDigits.padRight (plain : AllDigits digits) (width : Nat) :
    AllDigits (padRight width digits) :=
  plain.append (allDigits_replicate _)

end Digits

/-! ## Numerals with a point -/

/-- A numeral as people write it: digits, and perhaps a point and more digits. -/
@[ext] structure Decimal where
  whole : List Char
  frac : List Char
  whole_digits : AllDigits whole
  frac_digits : AllDigits frac
  whole_some : whole ≠ []

namespace Decimal

/-- There is a point only if digits follow it. -/
def text (n : Decimal) : List Char := if n.frac = [] then n.whole else n.whole ++ '.' :: n.frac

def amount (n : Decimal) : ℚ :=
  Nat.ofDigitChars 10 n.whole 0 + Nat.ofDigitChars 10 n.frac 0 / 10 ^ n.frac.length

/-- The amount counted in units of the last decimal place. -/
def units (n : Decimal) (decimals : Nat) : Nat :=
  Nat.ofDigitChars 10 (n.whole ++ padRight decimals n.frac) 0

variable {n : Decimal} {decimals : Nat}

theorem units_eq_add (short : n.frac.length ≤ decimals) :
    n.units decimals = Nat.ofDigitChars 10 n.whole 0 * 10 ^ decimals +
      Nat.ofDigitChars 10 (padRight decimals n.frac) 0 := by
  rw [units, Nat.ofDigitChars_append, Nat.ofDigitChars_eq_ofDigitChars_zero,
    length_padRight short, Nat.mul_comm]

/-- Units are the amount with the point moved, exactly. -/
theorem units_eq (short : n.frac.length ≤ decimals) :
    (n.units decimals : ℚ) = n.amount * 10 ^ decimals := by
  have places : (10 : ℚ) ^ decimals = 10 ^ (decimals - n.frac.length) * 10 ^ n.frac.length := by
    rw [← pow_add, Nat.sub_add_cancel short]
  have some_ : (10 : ℚ) ^ n.frac.length ≠ 0 := pow_ne_zero _ (by norm_num)
  rw [units_eq_add short, value_padRight, amount, add_mul]
  push_cast
  congr 1
  rw [places]
  field_simp

end Decimal

section Match

variable {text whole frac : List Char}

/-- The digits of a text up to the first other character. -/
theorem takeWhile_digits (plain : AllDigits whole) (rest : List Char)
    (stops : ∀ c ∈ rest.head?, isAsciiDigit c = false) :
    (whole ++ rest).takeWhile isAsciiDigit = whole ∧
      (whole ++ rest).dropWhile isAsciiDigit = rest := by
  rw [List.takeWhile_append_of_pos plain, List.dropWhile_append_of_pos plain]
  cases rest with
  | nil => exact ⟨List.append_nil _, rfl⟩
  | cons c rest =>
      have other := stops c rfl
      rw [List.takeWhile_cons_of_neg (by simp [other]),
        List.dropWhile_cons_of_neg (by simp [other])]
      exact ⟨List.append_nil _, rfl⟩

/-- Every decimal matches, with its two parts as groups. -/
theorem matchAmount_text (n : Decimal) : matchAmount n.text = some (n.whole, n.frac) := by
  by_cases point : n.frac = []
  · obtain ⟨taken, dropped⟩ := takeWhile_digits n.whole_digits [] (by simp)
    rw [List.append_nil] at taken dropped
    rw [Decimal.text, if_pos point, matchAmount, taken, dropped, point]
    simp [n.whole_some]
  · obtain ⟨taken, dropped⟩ := takeWhile_digits n.whole_digits ('.' :: n.frac)
      (by simp [isAsciiDigit])
    rw [Decimal.text, if_neg point, matchAmount, taken, dropped]
    have digits : ∀ c ∈ n.frac, isAsciiDigit c = true := n.frac_digits
    simpa [n.whole_some, point] using digits

/-- Nothing else matches. -/
theorem decimal_of_matchAmount (found : matchAmount text = some (whole, frac)) :
    ∃ n : Decimal, n.text = text ∧ n.whole = whole ∧ n.frac = frac := by
  have parts := List.takeWhile_append_dropWhile (p := isAsciiDigit) (l := text)
  have digits : AllDigits (text.takeWhile isAsciiDigit) := fun c member =>
    List.all_eq_true.mp List.all_takeWhile c member
  rw [matchAmount] at found
  split at found
  · cases found
  next some_ =>
    split at found
    next rest =>
      cases found
      rw [rest, List.append_nil] at parts
      exact ⟨⟨_, [], digits, by simp [AllDigits], some_⟩, parts, rfl, rfl⟩
    next frac' rest =>
      split at found
      next point =>
        cases found
        refine ⟨⟨_, frac, digits, List.all_eq_true.mp point.2, some_⟩, ?_, rfl, rfl⟩
        rw [Decimal.text, if_neg point.1, ← rest, parts]
      · cases found
    · cases found

end Match

theorem Decimal.text_injective {n m : Decimal} (same : n.text = m.text) : n = m := by
  have groups := matchAmount_text n
  rw [same, matchAmount_text m, Option.some.injEq, Prod.mk.injEq] at groups
  exact Decimal.ext groups.1.symm groups.2.symm

/-! ## Reading -/

section Reading

variable {s : String} {n : Decimal} {decimals : Nat}

theorem intOfDigits_frac {frac : List Char} (short : frac.length ≤ decimals) :
    intOfDigits (if padRight decimals frac = [] then ['0'] else padRight decimals frac) =
      if decimals ≤ maxStrDigits then some (Nat.ofDigitChars 10 (padRight decimals frac) 0)
      else none := by
  have long := length_padRight short
  by_cases empty : padRight decimals frac = []
  · rw [empty] at long ⊢
    obtain rfl : decimals = 0 := long.symm
    rfl
  · rw [if_neg empty, intOfDigits, long]
    by_cases limit : decimals ≤ maxStrDigits
    · rw [if_neg (Nat.not_lt.mpr limit), if_pos limit]
    · rw [if_pos (Nat.lt_of_not_le limit), if_neg limit]

/-- A decimal with few enough places is read exactly, unless a conversion meets the limit. -/
theorem toUnits_decimal (spelt : n.text = strip s.toList) (short : n.frac.length ≤ decimals) :
    toUnits (.str s) decimals =
      if n.whole.length ≤ maxStrDigits ∧ decimals ≤ maxStrDigits then .ok (n.units decimals : Int)
      else .error .value := by
  simp only [toUnits, ← spelt, matchAmount_text, if_neg (Nat.not_lt.mpr short),
    intOfDigits_frac short, Decimal.units_eq_add short]
  by_cases whole : n.whole.length ≤ maxStrDigits
  · rw [intOfDigits, if_neg (Nat.not_lt.mpr whole)]
    by_cases limit : decimals ≤ maxStrDigits <;> simp [whole, limit]
  · rw [intOfDigits, if_pos (Nat.lt_of_not_le whole)]
    simp [whole]

/-- Every other text is an `AmountError`. -/
theorem toUnits_other
    (other : ¬ ∃ n : Decimal, n.text = strip s.toList ∧ n.frac.length ≤ decimals) :
    ∃ e, toUnits (.str s) decimals = .error (.amount e) := by
  cases found : matchAmount (strip s.toList) with
  | none => exact ⟨.malformed s, by simp only [toUnits, found]⟩
  | some parts =>
      obtain ⟨whole, frac⟩ := parts
      obtain ⟨n, spelt, -, rfl⟩ := decimal_of_matchAmount found
      have precise : decimals < n.frac.length :=
        Nat.lt_of_not_le fun short => other ⟨n, spelt, short⟩
      exact ⟨.tooPrecise s n.frac.length decimals, by simp only [toUnits, found, if_pos precise]⟩

theorem toUnits_eq_ok {units : Int} :
    toUnits (.str s) decimals = .ok units ↔
      ∃ n : Decimal, n.text = strip s.toList ∧ n.frac.length ≤ decimals ∧
        n.whole.length ≤ maxStrDigits ∧ decimals ≤ maxStrDigits ∧ units = n.units decimals := by
  by_cases spelt : ∃ n : Decimal, n.text = strip s.toList ∧ n.frac.length ≤ decimals
  · obtain ⟨n, spelt, short⟩ := spelt
    have read := toUnits_decimal spelt short
    constructor
    · intro parsed
      rw [read] at parsed
      split at parsed
      next limit =>
        cases parsed
        exact ⟨n, spelt, short, limit.1, limit.2, rfl⟩
      · cases parsed
    · rintro ⟨m, spelt', short', whole, limit, rfl⟩
      rw [toUnits_decimal spelt' short', if_pos ⟨whole, limit⟩]
  · obtain ⟨e, raised⟩ := toUnits_other spelt
    rw [raised]
    constructor
    · rintro ⟨⟩
    · rintro ⟨n, spelt', short, -⟩
      exact absurd ⟨n, spelt', short⟩ spelt

end Reading

/-! ## Writing -/

section Zeros

variable {digits : List Char}

theorem stripZeros_concat (digits : List Char) (c : Char) :
    stripZeros (digits ++ [c]) = if c = '0' then stripZeros digits else digits ++ [c] := by
  by_cases zero : c = '0' <;> simp [stripZeros, zero]

/-- Only zeros go. -/
theorem stripZeros_append (digits : List Char) :
    ∃ k, stripZeros digits ++ List.replicate k '0' = digits := by
  induction digits using List.reverseRecOn with
  | nil => exact ⟨0, rfl⟩
  | append_singleton digits c ih =>
      by_cases zero : c = '0'
      · obtain ⟨k, same⟩ := ih
        refine ⟨k + 1, ?_⟩
        rw [stripZeros_concat, if_pos zero, List.replicate_succ', ← List.append_assoc, same, zero]
      · exact ⟨0, by rw [stripZeros_concat, if_neg zero, List.replicate_zero, List.append_nil]⟩

theorem getLast?_stripZeros (digits : List Char) : (stripZeros digits).getLast? ≠ some '0' := by
  induction digits using List.reverseRecOn with
  | nil => simp [stripZeros]
  | append_singleton digits c ih =>
      rw [stripZeros_concat]
      by_cases zero : c = '0'
      · rwa [if_pos zero]
      · rw [if_neg zero, List.getLast?_concat]
        exact fun same => zero (Option.some.inj same)

/-- A string that does not end in a zero comes back after padding. -/
theorem stripZeros_padRight (last : digits.getLast? ≠ some '0') (width : Nat) :
    stripZeros (padRight width digits) = digits := by
  rw [padRight]
  generalize width - digits.length = k
  induction k with
  | zero =>
      rw [List.replicate_zero, List.append_nil]
      induction digits using List.reverseRecOn with
      | nil => rfl
      | append_singleton digits c _ =>
          have some_ : c ≠ '0' := fun zero => last (by rw [List.getLast?_concat, zero])
          rw [stripZeros_concat, if_neg some_]
  | succ k ih => rw [List.replicate_succ', ← List.append_assoc, stripZeros_concat, if_pos rfl, ih]

theorem padRight_stripZeros (digits : List Char) :
    padRight digits.length (stripZeros digits) = digits := by
  obtain ⟨k, same⟩ := stripZeros_append digits
  have long := congrArg List.length same
  rw [List.length_append, List.length_replicate] at long
  have count : digits.length - (stripZeros digits).length = k := by omega
  rw [padRight, count, same]

theorem AllDigits.stripZeros (plain : AllDigits digits) : AllDigits (stripZeros digits) := by
  obtain ⟨k, same⟩ := stripZeros_append digits
  intro c member
  exact plain c (same ▸ List.mem_append_left _ member)

/-- A fraction below `10 ^ width` written with `width` digits. -/
theorem padLeft_toDigits {width frac : Nat} (some_ : frac ≠ 0) (below : frac < 10 ^ width) :
    (padLeft width (Nat.toDigits 10 frac)).length = width ∧
      Nat.ofDigitChars 10 (padLeft width (Nat.toDigits 10 frac)) 0 = frac := by
  have places : 0 < width := by
    rcases Nat.eq_zero_or_pos width with rfl | places
    · exact absurd (Nat.lt_one_iff.mp below) some_
    · exact places
  have short := (Nat.length_toDigits_le_iff (by decide) places).mpr below
  constructor
  · rw [padLeft, List.length_append, List.length_replicate]
    omega
  · rw [padLeft, Nat.ofDigitChars_append, Nat.ofDigitChars_replicate_zero, Nat.mul_zero,
      Nat.ofDigitChars_ten_toDigits]

end Zeros

/-- What `toHuman` writes. -/
def human (units decimals : Nat) : Decimal where
  whole := Nat.toDigits 10 (units / 10 ^ decimals)
  frac :=
    if units % 10 ^ decimals = 0 then []
    else stripZeros (padLeft decimals (Nat.toDigits 10 (units % 10 ^ decimals)))
  whole_digits := allDigits_toDigits _
  frac_digits := by
    split
    · exact List.forall_mem_nil _
    · exact ((allDigits_replicate _).append (allDigits_toDigits _)).stripZeros
  whole_some := Nat.toDigits_ne_nil

section Human

variable (units decimals : Nat)

theorem human_frac :
    (human units decimals).frac.length ≤ decimals ∧
      Nat.ofDigitChars 10 (padRight decimals (human units decimals).frac) 0 =
        units % 10 ^ decimals := by
  by_cases zero : units % 10 ^ decimals = 0
  · have none_ : (human units decimals).frac = [] := if_pos zero
    rw [none_, value_padRight, zero]
    exact ⟨Nat.zero_le _, Nat.zero_mul _⟩
  · have below : units % 10 ^ decimals < 10 ^ decimals := Nat.mod_lt _ (by positivity)
    obtain ⟨long, read⟩ := padLeft_toDigits zero below
    have stripped : (human units decimals).frac = _ := if_neg zero
    obtain ⟨k, parts⟩ :=
      stripZeros_append (padLeft decimals (Nat.toDigits 10 (units % 10 ^ decimals)))
    have back := padRight_stripZeros (padLeft decimals (Nat.toDigits 10 (units % 10 ^ decimals)))
    have total := congrArg List.length parts
    rw [List.length_append, long] at total
    rw [long] at back
    rw [stripped, back]
    exact ⟨by omega, read⟩

/-- Formatting loses nothing. -/
theorem human_units : (human units decimals).units decimals = units := by
  obtain ⟨short, frac⟩ := human_frac units decimals
  have whole : Nat.ofDigitChars 10 (human units decimals).whole 0 = units / 10 ^ decimals :=
    Nat.ofDigitChars_ten_toDigits
  rw [Decimal.units_eq_add short, frac, whole, Nat.div_add_mod']

theorem human_text :
    (human units decimals).text =
      if units % 10 ^ decimals = 0 then Nat.toDigits 10 (units / 10 ^ decimals)
      else Nat.toDigits 10 (units / 10 ^ decimals) ++
        '.' :: stripZeros (padLeft decimals (Nat.toDigits 10 (units % 10 ^ decimals))) := by
  by_cases zero : units % 10 ^ decimals = 0
  · have none_ : (human units decimals).frac = [] := if_pos zero
    rw [Decimal.text, if_pos none_, if_pos zero]
    rfl
  · have some_ : (human units decimals).frac ≠ [] := by
      intro none_
      have value := (human_frac units decimals).2
      rw [none_, value_padRight, Nat.ofDigitChars_nil, Nat.zero_mul] at value
      exact zero value.symm
    have stripped : (human units decimals).frac = _ := if_neg zero
    rw [Decimal.text, if_neg some_, if_neg zero, stripped]
    rfl

end Human

theorem strOfNat_eq {n : Nat} (short : n < 10 ^ maxStrDigits) :
    strOfNat n = some (Nat.toDigits 10 n) := by
  have limit := (Nat.length_toDigits_le_iff (by decide) (by decide : 0 < maxStrDigits)).mpr short
  rw [strOfNat, if_neg (Nat.not_lt.mpr limit)]

/-- Below the digit limit formatting writes that decimal. -/
theorem toHuman_eq {units decimals : Nat} (short : units / 10 ^ decimals < 10 ^ maxStrDigits)
    (limit : decimals ≤ maxStrDigits) :
    toHuman units decimals = .ok (String.ofList (human units decimals).text) := by
  have below : units % 10 ^ decimals < 10 ^ maxStrDigits :=
    (Nat.mod_lt _ (by positivity)).trans_le (Nat.pow_le_pow_right (by decide) limit)
  have natural : ¬ (units : Int) < 0 := Int.not_lt.mpr (Int.natCast_nonneg _)
  rw [toHuman, if_neg natural, human_text]
  simp only [Int.toNat_natCast, strOfNat_eq short, strOfNat_eq below]
  split <;> rfl

theorem strip_text (n : Decimal) : strip n.text = n.text := by
  have solid : ∀ {c : Char}, isAsciiDigit c = true → isSpace c = false := by
    intro c digit
    simp only [isAsciiDigit, Bool.and_eq_true, decide_eq_true_eq] at digit
    simp only [isSpace, Bool.or_eq_false_iff, Bool.and_eq_false_iff, decide_eq_false_iff_not]
    omega
  apply stripWhere_of_solid
  intro c member
  rw [Decimal.text] at member
  split at member
  · exact solid (n.whole_digits c member)
  · rcases List.mem_append.mp member with whole | rest
    · exact solid (n.whole_digits c whole)
    · rcases List.mem_cons.mp rest with rfl | frac
      · decide
      · exact solid (n.frac_digits c frac)

/-! ## Spellings -/

/-- No zero could be left out. -/
structure Decimal.Plain (n : Decimal) : Prop where
  whole : n.whole.head? = some '0' → n.whole = ['0']
  frac : n.frac.getLast? ≠ some '0'

/-- The text of a number has no leading zero to spare. -/
theorem toDigits_plain {n : Nat} (zero : (Nat.toDigits 10 n).head? = some '0') :
    Nat.toDigits 10 n = ['0'] := by
  obtain ⟨rest, text⟩ : ∃ rest, Nat.toDigits 10 n = '0' :: rest := List.head?_eq_some_iff.mp zero
  rcases Nat.eq_zero_or_pos rest.length with empty | some_
  · rw [text, List.length_eq_zero_iff.mp empty]
  · -- the remaining digits alone denote the number
    have plain : AllDigits rest := fun c member =>
      allDigits_toDigits n c (text ▸ List.mem_cons_of_mem _ member)
    have value : Nat.ofDigitChars 10 rest 0 = n := by
      have read := Nat.ofDigitChars_ten_toDigits (n := n)
      rwa [text, Nat.ofDigitChars_cons] at read
    have shorter := (Nat.length_toDigits_le_iff (by decide) some_).mpr (value ▸ plain.lt)
    rw [text, List.length_cons] at shorter
    omega

theorem human_plain (units decimals : Nat) : (human units decimals).Plain where
  whole := toDigits_plain
  frac := by
    show (if _ then _ else _ : List Char).getLast? ≠ _
    split
    · simp
    · exact getLast?_stripZeros _

theorem significant_digitValues {n : Decimal} (plain : n.Plain) :
    significant (digitValues n.whole) = if n.whole = ['0'] then [] else digitValues n.whole := by
  by_cases zero : n.whole = ['0']
  · rw [zero]
    rfl
  · rw [if_neg zero]
    cases spelt : n.whole with
    | nil => rfl
    | cons c rest =>
        have digit := n.whole_digits c (spelt ▸ List.mem_cons_self)
        have first : c ≠ '0' := by
          rintro rfl
          exact zero (plain.whole (by rw [spelt]; rfl))
        simp only [isAsciiDigit, Bool.and_eq_true, decide_eq_true_eq] at digit
        have some_ : c.toNat - '0'.toNat ≠ 0 := by
          intro none_
          apply first
          apply Char.toNat_inj.mp
          show c.toNat = 48
          have : c.toNat - 48 = 0 := none_
          omega
        exact significant_cons some_

/-- The value of the integer part determines its spelling. -/
theorem Decimal.Plain.whole_unique {n m : Decimal} (plain : n.Plain) (plain' : m.Plain)
    (same : Nat.ofDigitChars 10 n.whole 0 = Nat.ofDigitChars 10 m.whole 0) :
    n.whole = m.whole := by
  rw [ofDigitChars_eq_value, ofDigitChars_eq_value] at same
  have digits := significant_eq_of_value_eq (by decide) n.whole_digits.isNumeral
    m.whole_digits.isNumeral same
  rw [significant_digitValues plain, significant_digitValues plain'] at digits
  split at digits
  next zero =>
    split at digits
    next zero' => rw [zero, zero']
    · exact absurd (List.map_eq_nil_iff.mp digits.symm) m.whole_some
  · split at digits
    · exact absurd (List.map_eq_nil_iff.mp digits) n.whole_some
    · exact n.whole_digits.ext m.whole_digits digits

/-- **One plain spelling for each amount.** -/
theorem Decimal.Plain.unique {n m : Decimal} (plain : n.Plain) (plain' : m.Plain)
    (same : n.amount = m.amount) : n = m := by
  obtain ⟨places, short, short'⟩ : ∃ places, n.frac.length ≤ places ∧ m.frac.length ≤ places :=
    ⟨_, le_max_left _ _, le_max_right _ _⟩
  have units : n.units places = m.units places := by
    have exact_ : (n.units places : ℚ) = m.units places := by
      rw [units_eq short, units_eq short', same]
    exact_mod_cast exact_
  rw [units_eq_add short, units_eq_add short'] at units
  have below := (n.frac_digits.padRight places).lt
  have below' := (m.frac_digits.padRight places).lt
  rw [length_padRight short] at below
  rw [length_padRight short'] at below'
  -- the two parts of the units are quotient and remainder
  have whole := congrArg (· / 10 ^ places) units
  have frac := congrArg (· % 10 ^ places) units
  simp only [Nat.mul_comm _ (10 ^ places), Nat.mul_add_mod, Nat.mod_eq_of_lt below,
    Nat.mod_eq_of_lt below', Nat.mul_add_div (Nat.pow_pos (by decide : 0 < 10)),
    Nat.div_eq_of_lt below, Nat.div_eq_of_lt below', Nat.add_zero] at whole frac
  have wholes := plain.whole_unique plain' whole
  have padded := (n.frac_digits.padRight places).eq_of_value_eq (m.frac_digits.padRight places)
    ((length_padRight short).trans (length_padRight short').symm) frac
  have fracs : n.frac = m.frac := by
    rw [← stripZeros_padRight plain.frac places, padded, stripZeros_padRight plain'.frac]
  exact Decimal.ext wholes fracs

/-! ## There and back -/

theorem toUnits_human {units decimals : Nat} (short : units / 10 ^ decimals < 10 ^ maxStrDigits)
    (limit : decimals ≤ maxStrDigits) :
    toUnits (.str (String.ofList (human units decimals).text)) decimals = .ok (units : Int) := by
  have spelt : (human units decimals).text =
      strip (String.ofList (human units decimals).text).toList := by
    rw [String.toList_ofList, strip_text]
  have whole : (human units decimals).whole.length ≤ maxStrDigits :=
    (Nat.length_toDigits_le_iff (by decide) (by decide)).mpr short
  rw [toUnits_decimal spelt (human_frac units decimals).1, if_pos ⟨whole, limit⟩, human_units]

/-- What was read can be written: its integer part has no more digits than the text had. -/
theorem toHuman_toUnits {s : String} {decimals : Nat} {units : Int}
    (parsed : toUnits (.str s) decimals = .ok units) :
    ∃ u : Nat, units = u ∧ u / 10 ^ decimals < 10 ^ maxStrDigits ∧ decimals ≤ maxStrDigits := by
  obtain ⟨n, -, short, whole, limit, rfl⟩ := toUnits_eq_ok.mp parsed
  refine ⟨_, rfl, ?_, limit⟩
  have below := (n.frac_digits.padRight decimals).lt
  rw [length_padRight short] at below
  rw [Decimal.units_eq_add short, Nat.mul_comm, Nat.mul_add_div (by positivity),
    Nat.div_eq_of_lt below, Nat.add_zero]
  exact n.whole_digits.lt.trans_le (Nat.pow_le_pow_right (by decide) whole)

/-- **Amounts are exact.**  Reading accepts the decimals with few enough places and multiplies
the amount by `10 ^ decimals`; writing is its inverse and gives the plain spelling, so texts of
one number, and they only, are written alike.  All below the interpreter's digit limit. -/
theorem amounts_exact (decimals : Nat) :
    (∀ (s : String) (units : Int), toUnits (.str s) decimals = .ok units ↔
      ∃ n : Decimal, n.text = strip s.toList ∧ n.frac.length ≤ decimals ∧
        n.whole.length ≤ maxStrDigits ∧ decimals ≤ maxStrDigits ∧
        (units : ℚ) = n.amount * 10 ^ decimals) ∧
    (∀ units : Nat, units / 10 ^ decimals < 10 ^ maxStrDigits → decimals ≤ maxStrDigits →
      ∃ text, toHuman units decimals = .ok text ∧
        toUnits (.str text) decimals = .ok (units : Int)) ∧
    (∀ (s : String) (units : Int) (n : Decimal), toUnits (.str s) decimals = .ok units →
      n.text = strip s.toList →
      ∃ m : Decimal, toHuman units decimals = .ok (String.ofList m.text) ∧
        m.Plain ∧ m.amount = n.amount ∧
        ∀ m' : Decimal, m'.Plain → m'.amount = n.amount → m' = m) ∧
    ∀ (s s' : String) (units units' : Int), toUnits (.str s) decimals = .ok units →
      toUnits (.str s') decimals = .ok units' →
      (units = units' ↔ toHuman units decimals = toHuman units' decimals) := by
  refine ⟨fun s units => ?_, fun units short limit => ?_, fun s units n parsed spelt => ?_,
    fun s s' units units' parsed parsed' => ⟨fun same => by rw [same], fun same => ?_⟩⟩
  · rw [toUnits_eq_ok]
    refine exists_congr fun n => and_congr_right fun _ => and_congr_right fun short =>
      and_congr_right fun _ => and_congr_right fun _ => ?_
    rw [← Decimal.units_eq short]
    exact ⟨fun same => by rw [same, Int.cast_natCast], fun same => by exact_mod_cast same⟩
  · exact ⟨_, toHuman_eq short limit, toUnits_human short limit⟩
  · obtain ⟨u, rfl, short, limit⟩ := toHuman_toUnits parsed
    obtain ⟨n', spelt', places, -, -, units⟩ := toUnits_eq_ok.mp parsed
    obtain rfl : n' = n := Decimal.text_injective (spelt'.trans spelt.symm)
    have places' := (human_frac u decimals).1
    have plain := human_plain u decimals
    have amounts : (human u decimals).amount = n'.amount := by
      have scale : (10 : ℚ) ^ decimals ≠ 0 := pow_ne_zero _ (by norm_num)
      apply mul_right_cancel₀ scale
      rw [← Decimal.units_eq places', ← Decimal.units_eq places, human_units,
        Int.natCast_inj.mp units]
    refine ⟨_, toHuman_eq short limit, plain, amounts, fun m plain' same => ?_⟩
    exact plain'.unique plain (same.trans amounts.symm)
  · obtain ⟨u, rfl, short, limit⟩ := toHuman_toUnits parsed
    obtain ⟨u', rfl, short', -⟩ := toHuman_toUnits parsed'
    rw [toHuman_eq short limit, toHuman_eq short' limit, Except.ok.injEq] at same
    have back := toUnits_human short limit
    rw [same, toUnits_human short' limit] at back
    exact (Except.ok.inj back).symm

/-- One and a half, spelt in two ways. -/
theorem amounts_exact_spellings :
    toUnits (.str " 01.50") 6 = .ok 1500000 ∧ toUnits (.str "1.5\n") 6 = .ok 1500000 ∧
      ∃ text, toHuman 1500000 6 = .ok text ∧ toUnits (.str text) 6 = .ok 1500000 := by
  refine ⟨rfl, rfl, ?_⟩
  have small : 1500000 / 10 ^ 6 < 10 ^ maxStrDigits :=
    (Nat.lt_pow_self (by decide)).trans_le' (by decide)
  exact (amounts_exact 6).2.1 1500000 small (by decide)

end Sluice.Kernel
