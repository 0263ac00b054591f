/-
# Kernel.Stored -- what rows and answers hold as text

`str(uuid)`, `datetime.isoformat` with `datetime.fromisoformat`, and the two functions that
take a signed transaction into its row and out of it again, `SignedTx.to_json` and
`SignedTx.from_json`.

`fromisoformat` is modelled on the texts `isoformat` writes of an instant in UTC; the other
spellings it takes are never stored.  What is no such text, or names no instant, is its
`ValueError`.
-/
import Sluice.Kernel.Text
import Sluice.Theory.Calendar
import Sluice.Theory.Radix

namespace Sluice.Kernel

open Sluice.Theory Sluice.Theory.Radix

set_option autoImplicit false

/-- `%0wd` of a number that fits. -/
def padded (width n : Nat) : List Char := (fixed 10 width n).map Nat.digitChar

/-! ## Ids -/

/-- `str(id)`: 32 hexadecimal digits in groups of 8, 4, 4, 4 and 12. -/
def uuidText (id : UUID) : List Char :=
  let hex := (fixed 16 32 id.toNat).map Nat.digitChar
  hex.take 8 ++ '-' :: (hex.drop 8).take 4 ++ '-' :: (hex.drop 12).take 4 ++
    '-' :: (hex.drop 16).take 4 ++ '-' :: hex.drop 20

/-! ## Instants -/

def day : Int := 86400 * second

/-- The day of an instant, counted as `date.toordinal` does; the epoch is day 719163. -/
def ordinal (t : Int) : Int := t / day + 719163

/-- The years 1 to 9999 in days. -/
theorem isDatetime_iff (t : Int) : IsDatetime t ↔ 1 ≤ ordinal t ∧ ordinal t ≤ 3652059 := by
  unfold IsDatetime datetimeMin datetimeMax ordinal day second
  omega

/-- `datetime.isoformat` of an instant in UTC. -/
def isoformat (t : Int) : List Char :=
  let date := Calendar.ord2ymd (ordinal t).toNat
  let us := (t % day).toNat
  padded 4 date.1 ++ '-' :: padded 2 date.2.1 ++ '-' :: padded 2 date.2.2 ++
  'T' :: padded 2 (us / 3600000000) ++ ':' :: padded 2 (us / 60000000 % 60) ++
  ':' :: padded 2 (us / 1000000 % 60) ++
  (if us % 1000000 = 0 then [] else '.' :: padded 6 (us % 1000000)) ++ "+00:00".toList

/-- `width` digits, and what follows them. -/
def readPadded (width : Nat) (text : List Char) : Option (Nat × List Char) :=
  if (text.take width).length = width ∧ (text.take width).all isAsciiDigit then
    some (Nat.ofDigitChars 10 (text.take width) 0, text.drop width)
  else none

def expect (c : Char) : List Char → Option (List Char)
  | [] => none
  | head :: rest => if head = c then some rest else none

/-- The microseconds, if there are any. -/
def readFraction : List Char → Option (Nat × List Char)
  | '.' :: rest => readPadded 6 rest
  | text => some (0, text)

def fromisoformat (text : List Char) : Option Int := do
  let (year, text) ← readPadded 4 text
  let text ← expect '-' text
  let (month, text) ← readPadded 2 text
  let text ← expect '-' text
  let (dayOfMonth, text) ← readPadded 2 text
  let text ← expect 'T' text
  let (hour, text) ← readPadded 2 text
  let text ← expect ':' text
  let (minute, text) ← readPadded 2 text
  let text ← expect ':' text
  let (sec, text) ← readPadded 2 text
  let (us, text) ← readFraction text
  if text = "+00:00".toList ∧ Calendar.IsDate year month dayOfMonth ∧ hour < 24 ∧ minute < 60 ∧
      sec < 60 then
    some ((Calendar.ymd2ord year month dayOfMonth - 719163) * day +
      (((hour * 60 + minute) * 60 + sec) * 1000000 + us : Nat))
  else none

/-! ## Signed transactions -/

/-- The dictionary in the column `signed_tx`; the raw data goes in and out as it is. -/
structure SignedJson where
  rawData : RawData
  txid : Hex
  expiration : List Char
  signature : List Char
  deriving DecidableEq, Repr

def SignedTx.toJson (tx : SignedTx) : SignedJson where
  rawData := tx.rawData
  txid := tx.txid
  expiration := isoformat tx.expiration
  signature := tx.signature

def SignedTx.fromJson (d : SignedJson) : Option SignedTx :=
  (fromisoformat d.expiration).map fun expiration => ⟨d.rawData, d.txid, expiration, d.signature⟩

/-! ## Reading back what was written -/

section Digits

variable {width n : Nat} {rest : List Char}

/-- Characters with a meaning of their own in the text of a number or an id. -/
def marks : List Char := ['+', '-', 'x', 'X', 'u', '\x7b', '\x7d']

theorem digitChar_spec : ∀ d < 16, hexDigit d.digitChar = some d ∧ d.digitChar ≠ '_' ∧
    ((0x20 < d.digitChar.toNat ∧ d.digitChar.toNat < 127) ∧ d.digitChar ∉ marks) ∧
    (d < 10 → isAsciiDigit d.digitChar = true ∧ d.digitChar.toNat - '0'.toNat = d) := by
  decide +kernel

theorem ofDigitChars_digitChar (digits : List Nat) (numeral : IsNumeral 10 digits) (start : Nat) :
    Nat.ofDigitChars 10 (digits.map Nat.digitChar) start =
      start * 10 ^ digits.length + value 10 digits := by
  rw [← foldl_eq_value, Nat.ofDigitChars_eq_foldl, List.foldl_map]
  induction digits generalizing start with
  | nil => rfl
  | cons d digits ih =>
      have small : d < 10 := numeral d List.mem_cons_self
      have digit := ((digitChar_spec d (by omega)).2.2.2 small).2
      rw [List.foldl_cons, List.foldl_cons, digit, Nat.mul_comm 10 start]
      exact ih (fun d' member => numeral d' (.tail _ member)) _

theorem readPadded_padded (fits : n < 10 ^ width) :
    readPadded width (padded width n ++ rest) = some (n, rest) := by
  have numeral := fixed_isNumeral (show 0 < 10 by decide) width n
  have length : (padded width n).length = width := by simp [padded]
  have digits : (padded width n).all isAsciiDigit = true := by
    rw [List.all_eq_true]
    intro c member
    obtain ⟨d, present, rfl⟩ := List.mem_map.mp member
    have small := numeral d present
    exact ((digitChar_spec d (by omega)).2.2.2 small).1
  have number : Nat.ofDigitChars 10 (padded width n) 0 = n := by
    rw [padded, ofDigitChars_digitChar _ numeral, Nat.zero_mul, Nat.zero_add, value_fixed fits]
  rw [readPadded, List.take_left' length, List.drop_left' length, if_pos ⟨length, digits⟩, number]

end Digits

theorem expect_cons (c : Char) (rest : List Char) : expect c (c :: rest) = some rest := if_pos rfl

section Ids

theorem remove_of_absent {first : Char} {needle text : List Char} (absent : first ∉ text) :
    remove (first :: needle) text = text := by
  induction text with
  | nil => rfl
  | cons c rest ih =>
      obtain ⟨other, further⟩ := List.ne_and_not_mem_of_not_mem_cons absent
      have mismatch : (first :: needle).isPrefixOf (c :: rest) = false := by
        simp [List.isPrefixOf, other]
      rw [remove, removeFrom, if_neg (by rw [mismatch]; decide)]
      exact congrArg (c :: ·) (ih further)

theorem remove_char (c : Char) (text : List Char) : remove [c] text = text.filter (· ≠ c) := by
  induction text with
  | nil => rfl
  | cons head rest ih =>
      rw [remove, removeFrom]
      by_cases same : c = head
      · subst same
        rw [if_pos (by simp), List.filter_cons_of_neg (by simp)]
        exact ih
      · rw [if_neg (by simp [same]), List.filter_cons_of_pos (by simp [Ne.symm same])]
        exact congrArg (head :: ·) ih

theorem readDigits_digitChar (digits : List Nat) (numeral : IsNumeral 16 digits) :
    ∀ (after : Bool) (start : Nat), (after = true ∨ digits ≠ []) →
      readDigits hexDigit 16 after start (digits.map Nat.digitChar) =
        some (digits.foldl (fun n d => n * 16 + d) start) := by
  induction digits with
  | nil =>
      intro after start some_
      have := some_.resolve_right (fun differs => differs rfl)
      simp [readDigits, this]
  | cons d digits ih =>
      intro after start _
      obtain ⟨digit, other, -⟩ := digitChar_spec d (numeral d List.mem_cons_self)
      rw [List.map_cons, readDigits, digit]
      · exact ih (fun d' member => numeral d' (.tail _ member)) true _ (.inl rfl)
      · exact other

/-- Without a sign or a mark of the base there are only digits to read. -/
theorem intOfHex_plain {text : List Char}
    (visible : ∀ c ∈ text, 0x20 < c.toNat ∧ c.toNat < 127)
    (plain : ∀ c ∈ text, c ≠ '+' ∧ c ≠ 'x' ∧ c ≠ 'X') :
    intOfHex text = readDigits hexDigit 16 false 0 text := by
  unfold intOfHex
  rw [intText_of_visible visible]
  rcases text with _ | ⟨c, _ | ⟨x, rest⟩⟩
  · rfl
  · have unsigned := (plain c List.mem_cons_self).1
    simp [unsigned]
  · have unsigned := (plain c List.mem_cons_self).1
    obtain ⟨-, low, high⟩ := plain x (.tail _ List.mem_cons_self)
    by_cases zero : c = '0'
    · subst zero
      simp [low, high]
    · simp [unsigned, zero]

/-- `int(_, 16)` of plain hexadecimal digits. -/
theorem intOfHex_digitChar {digits : List Nat} (numeral : IsNumeral 16 digits)
    (some_ : digits ≠ []) : intOfHex (digits.map Nat.digitChar) = some (value 16 digits) := by
  have chars : ∀ c ∈ digits.map Nat.digitChar,
      (0x20 < c.toNat ∧ c.toNat < 127) ∧ c ∉ marks := by
    intro c member
    obtain ⟨d, present, rfl⟩ := List.mem_map.mp member
    exact (digitChar_spec d (numeral d present)).2.2.1
  have plain : ∀ c ∈ digits.map Nat.digitChar, c ≠ '+' ∧ c ≠ 'x' ∧ c ≠ 'X' := by
    intro c member
    refine ⟨?_, ?_, ?_⟩ <;> rintro rfl <;> exact absurd (chars _ member).2 (by decide)
  rw [intOfHex_plain (fun c member => (chars c member).1) plain,
    readDigits_digitChar digits numeral false 0 (.inr some_), foldl_eq_value, Nat.zero_mul,
    Nat.zero_add]

/-- The characters of an id as text. -/
theorem mem_uuidText {id : UUID} {c : Char} (member : c ∈ uuidText id) :
    c = '-' ∨ ∃ d < 16, c = d.digitChar := by
  have digit : c ∈ (fixed 16 32 id.toNat).map Nat.digitChar → ∃ d < 16, c = d.digitChar := by
    intro present
    obtain ⟨d, listed, rfl⟩ := List.mem_map.mp present
    exact ⟨d, fixed_isNumeral (by decide) 32 id.toNat d listed, rfl⟩
  simp only [uuidText, List.mem_append, List.mem_cons] at member
  rcases member with ((((first | dash | second_) | dash | third) | dash | fourth) | dash | fifth)
  · exact .inr (digit (List.mem_of_mem_take first))
  · exact .inl dash
  · exact .inr (digit (List.mem_of_mem_drop (List.mem_of_mem_take second_)))
  · exact .inl dash
  · exact .inr (digit (List.mem_of_mem_drop (List.mem_of_mem_take third)))
  · exact .inl dash
  · exact .inr (digit (List.mem_of_mem_drop (List.mem_of_mem_take fourth)))
  · exact .inl dash
  · exact .inr (digit (List.mem_of_mem_drop fifth))

theorem filter_uuidText (id : UUID) :
    (uuidText id).filter (· ≠ '-') = (fixed 16 32 id.toNat).map Nat.digitChar := by
  have solid : ∀ c ∈ (fixed 16 32 id.toNat).map Nat.digitChar, decide (c ≠ '-') = true := by
    intro c member
    obtain ⟨d, listed, rfl⟩ := List.mem_map.mp member
    have plain := (digitChar_spec d (fixed_isNumeral (by decide) 32 id.toNat d listed)).2.2.1.2
    exact decide_eq_true fun dash => absurd plain (dash ▸ by decide)
  unfold uuidText
  generalize (fixed 16 32 id.toNat).map Nat.digitChar = hex at *
  have keeps : ∀ part : List Char, part.Sublist hex → part.filter (· ≠ '-') = part :=
    fun part within => List.filter_eq_self.mpr fun c member => solid c (within.subset member)
  rw [List.filter_append, List.filter_append, List.filter_append, List.filter_append,
    List.filter_cons_of_neg (by simp), List.filter_cons_of_neg (by simp),
    List.filter_cons_of_neg (by simp), List.filter_cons_of_neg (by simp),
    keeps _ (List.take_sublist 8 hex), keeps _ (List.drop_sublist 20 hex),
    keeps _ ((List.take_sublist 4 _).trans (List.drop_sublist 8 hex)),
    keeps _ ((List.take_sublist 4 _).trans (List.drop_sublist 12 hex)),
    keeps _ ((List.take_sublist 4 _).trans (List.drop_sublist 16 hex)),
    ← List.take_add, ← List.take_add, ← List.take_add, List.take_append_drop]

/-- An id is read back from its text. -/
theorem uuidOfText_uuidText (id : UUID) : uuidOfText (uuidText id) = some id := by
  have absent : ∀ c ∈ marks, c ≠ '-' → c ∉ uuidText id := by
    intro c mark dash member
    rcases mem_uuidText member with same | ⟨d, small, rfl⟩
    · exact dash same
    · exact (digitChar_spec d small).2.2.1.2 mark
  have noU : 'u' ∉ uuidText id := absent 'u' (by decide) (by decide)
  have urn : remove "urn:".toList (uuidText id) = uuidText id := remove_of_absent noU
  have uuid : remove "uuid:".toList (uuidText id) = uuidText id := remove_of_absent noU
  have braces : stripWhere (fun c => c = '\x7b' || c = '\x7d') (uuidText id) = uuidText id := by
    refine stripWhere_of_solid fun c member => ?_
    simp only [Bool.or_eq_false_iff, decide_eq_false_iff_not]
    constructor <;> rintro rfl <;> exact absent _ (by decide) (by decide) member
  have length : ((fixed 16 32 id.toNat).map Nat.digitChar).length = 32 := by simp
  have some_ : fixed 16 32 id.toNat ≠ [] := List.ne_nil_of_length_pos (by simp)
  have fits : id.toNat < 16 ^ 32 := id.isLt
  unfold uuidOfText
  simp only
  rw [urn, uuid, braces, remove_char, filter_uuidText, if_neg (not_not.mpr length),
    intOfHex_digitChar (fixed_isNumeral (by decide) 32 id.toNat) some_, value_fixed fits]
  rw [Option.map_some, BitVec.ofNat_toNat, BitVec.setWidth_eq]

theorem uuidText_injective {id id' : UUID} (same : uuidText id = uuidText id') : id = id' := by
  have read := congrArg uuidOfText same
  rw [uuidOfText_uuidText, uuidOfText_uuidText] at read
  exact Option.some.inj read

end Ids

section Instants

variable {t : Int}

theorem readFraction_written (us : Nat) (fits : us < 1000000) :
    readFraction ((if us = 0 then [] else '.' :: padded 6 us) ++ "+00:00".toList) =
      some (us, "+00:00".toList) := by
  by_cases whole : us = 0
  · subst whole
    rfl
  · rw [if_neg whole]
    exact readPadded_padded fits

/-- The fields of a time of day count its microseconds. -/
theorem timeOfDay (us : Nat) :
    ((us / 3600000000 * 60 + us / 60000000 % 60) * 60 + us / 1000000 % 60) * 1000000 +
      us % 1000000 = us := by
  omega

/-- The day of an instant with the time of that day. -/
theorem day_and_time (valid : IsDatetime t) :
    (((ordinal t).toNat : Int) - 719163) * day + ((t % day).toNat : Nat) = t := by
  have positive := ((isDatetime_iff t).mp valid).1
  rw [Int.toNat_of_nonneg (by omega), Int.toNat_of_nonneg (Int.emod_nonneg t (by decide)), ordinal,
    Int.add_sub_cancel, Int.mul_comm]
  exact Int.mul_ediv_add_emod t day

/-- An instant is read back as it was written. -/
theorem fromisoformat_isoformat (valid : IsDatetime t) : fromisoformat (isoformat t) = some t := by
  obtain ⟨first, last⟩ := (isDatetime_iff t).mp valid
  have low : 1 ≤ (ordinal t).toNat := by omega
  have high : (ordinal t).toNat ≤ 3652059 := by omega
  have short : (t % day).toNat < 86400000000 := by
    have := Int.emod_lt_of_pos t (show 0 < day by decide)
    have := Int.emod_nonneg t (show day ≠ 0 by decide)
    simp only [day, second] at *
    omega
  obtain ⟨isDate, counted⟩ := Calendar.ord2ymd_spec (ordinal t).toNat low
  have fourDigits := Calendar.year_le (ordinal t).toNat low high
  have whole := day_and_time valid
  have lastDay := Calendar.daysInMonth_le (Calendar.isLeap (Calendar.ord2ymd (ordinal t).toNat).1) _
    isDate.2.1.2
  rw [isoformat]
  generalize Calendar.ord2ymd (ordinal t).toNat = date at *
  generalize (t % day).toNat = us at *
  obtain ⟨year, month, dayOfMonth⟩ := date
  have lastMonth := isDate.2.1.2
  have lastOf := isDate.2.2.2
  dsimp only at *
  have wide : year < 10 ^ 4 := by omega
  have month2 : month < 10 ^ 2 := by omega
  have day2 : dayOfMonth < 10 ^ 2 := by omega
  have hour : us / 3600000000 < 24 := by omega
  have minute : us / 60000000 % 60 < 60 := by omega
  have sec : us / 1000000 % 60 < 60 := by omega
  have hour2 : us / 3600000000 < 10 ^ 2 := by omega
  have minute2 : us / 60000000 % 60 < 10 ^ 2 := by omega
  have sec2 : us / 1000000 % 60 < 10 ^ 2 := by omega
  simp only [fromisoformat, List.append_assoc, List.cons_append, Option.bind_eq_bind,
    readPadded_padded, expect_cons, readFraction_written, Option.bind_some, wide, month2, day2,
    hour2, minute2, sec2, Nat.mod_lt us (show 0 < 1000000 by decide)]
  rw [if_pos ⟨trivial, isDate, hour, minute, sec⟩, timeOfDay, counted, whole]

end Instants

end Sluice.Kernel
