/-
# Kernel.Text -- the string functions the intake path relies on

`str.strip`, `str.replace` with an empty replacement, `int` of a digit string with
the interpreter's limit of 4300 digits, and `uuid.UUID` of a text.  The last accepts
far more spellings than the canonical one: braces, prefixes and hyphens are dropped,
and what remains is read by `int(_, 16)`, which takes a sign, a `0x` prefix, single
underscores and the decimal digits of every script.

`int` first turns its text into ASCII (`toAscii`), so that a foreign zero before an `x` is a
prefix as well.  The separators U+001C to U+001F are white space to `str.strip` and not to
`int`.
-/
import Sluice.Kernel.Model

namespace Sluice.Kernel

open Sluice.Theory

set_option autoImplicit false

/-- `str.isspace` of one character. -/
def isSpace (c : Char) : Bool :=
  let n := c.toNat
  (0x9 ≤ n && n ≤ 0xd) || (0x1c ≤ n && n ≤ 0x20) || n = 0x85 || n = 0xa0 || n = 0x1680 ||
    (0x2000 ≤ n && n ≤ 0x200a) || n = 0x2028 || n = 0x2029 || n = 0x202f || n = 0x205f ||
    n = 0x3000

def stripWhere (drop : Char → Bool) (text : List Char) : List Char :=
  ((text.dropWhile drop).reverse.dropWhile drop).reverse

/-- `str.strip()`. -/
def strip (text : List Char) : List Char := stripWhere isSpace text

/-- `text.replace(needle, "")` for a non-empty needle: left to right, no overlaps.
`skip` counts the characters of the current match still to be dropped. -/
def removeFrom (needle : List Char) : Nat → List Char → List Char
  | _, [] => []
  | skip + 1, _ :: rest => removeFrom needle skip rest
  | 0, c :: rest =>
      if needle.isPrefixOf (c :: rest) then removeFrom needle (needle.length - 1) rest
      else c :: removeFrom needle 0 rest

def remove (needle text : List Char) : List Char := removeFrom needle 0 text

/-! ## Integers -/

def isAsciiDigit (c : Char) : Bool := 0x30 ≤ c.toNat && c.toNat ≤ 0x39

/-- Digits the interpreter converts before it refuses. -/
def maxStrDigits : Nat := 4300

/-- `int(text)` of a non-empty string of ASCII digits; `none` is the `ValueError` of a
text above the digit limit. -/
def intOfDigits (digits : List Char) : Option Nat :=
  if digits.length > maxStrDigits then none
  else some (Nat.ofDigitChars 10 digits 0)

/-- `str(n)` of a natural number; `none` is the `ValueError` above the digit limit. -/
def strOfNat (n : Nat) : Option (List Char) :=
  if (Nat.toDigits 10 n).length > maxStrDigits then none
  else some (Nat.toDigits 10 n)

/-- The code points of the digit zero in every script. -/
def decimalZeros : List Nat :=
  [0x30, 0x660, 0x6f0, 0x7c0, 0x966, 0x9e6, 0xa66, 0xae6, 0xb66, 0xbe6, 0xc66, 0xce6, 0xd66, 0xde6,
    0xe50, 0xed0, 0xf20, 0x1040, 0x1090, 0x17e0, 0x1810, 0x1946, 0x19d0, 0x1a80, 0x1a90, 0x1b50,
    0x1bb0, 0x1c40, 0x1c50, 0xa620, 0xa8d0, 0xa900, 0xa9d0, 0xa9f0, 0xaa50, 0xabf0, 0xff10,
    0x104a0, 0x10d30, 0x11066, 0x110f0, 0x11136, 0x111d0, 0x112f0, 0x11450, 0x114d0, 0x11650,
    0x116c0, 0x11730, 0x118e0, 0x11950, 0x11c50, 0x11d50, 0x11da0, 0x16a60, 0x16ac0, 0x16b50,
    0x1d7ce, 0x1d7d8, 0x1d7e2, 0x1d7ec, 0x1d7f6, 0x1e140, 0x1e2f0, 0x1e950, 0x1fbf0]

def decimalDigit (c : Char) : Option Nat :=
  (decimalZeros.find? fun base => base ≤ c.toNat && c.toNat < base + 10).map fun base =>
    c.toNat - base

/-- What `int` takes a character for: the spaces and the decimal digits of every script have
an ASCII reading, and nothing else beyond ASCII is read. -/
def toAscii (c : Char) : Char :=
  if c.toNat < 127 then c
  else if isSpace c then ' '
  else match decimalDigit c with
    | some d => d.digitChar
    | none => '?'

def isAsciiSpace (c : Char) : Bool := (0x9 ≤ c.toNat && c.toNat ≤ 0xd) || c = ' '

/-- The text `int` goes on to parse. -/
def intText (text : List Char) : List Char := stripWhere isAsciiSpace (text.map toAscii)

def asciiDigit (c : Char) : Option Nat :=
  if isAsciiDigit c then some (c.toNat - '0'.toNat) else none

def hexDigit (c : Char) : Option Nat :=
  if isAsciiDigit c then some (c.toNat - '0'.toNat)
  else if 'a' ≤ c ∧ c ≤ 'f' then some (c.toNat - 'a'.toNat + 10)
  else if 'A' ≤ c ∧ c ≤ 'F' then some (c.toNat - 'A'.toNat + 10)
  else none

/-- Digits with single underscores between them; `after` says that a digit or the
prefix came last, so an underscore may follow. -/
def readDigits (digit : Char → Option Nat) (base : Nat) (after : Bool) (value : Nat) :
    List Char → Option Nat
  | [] => if after then some value else none
  | '_' :: rest => if after && rest ≠ [] then readDigits digit base false value rest else none
  | c :: rest =>
      match digit c with
      | some d => readDigits digit base true (value * base + d) rest
      | none => none

/-- A leading sign: whether it is a minus, and the rest. -/
def readSign : List Char → Bool × List Char
  | '-' :: rest => (true, rest)
  | '+' :: rest => (false, rest)
  | rest => (false, rest)

/-- `int(text)`; `none` is its `ValueError`.  Only digits count against the limit. -/
def intOfText (text : List Char) : Option Int :=
  let (negative, digits) := readSign (intText text)
  if (digits.filter (· ≠ '_')).length > maxStrDigits then none
  else (readDigits asciiDigit 10 false 0 digits).map fun n : Nat =>
    if negative then -(n : Int) else n

theorem toNat_of_isDigit {c : Char} (digit : c.isDigit = true) : 48 ≤ c.toNat ∧ c.toNat ≤ 57 := by
  simp only [Char.isDigit, Bool.and_eq_true, decide_eq_true_eq] at digit
  exact ⟨UInt32.le_iff_toNat_le.mp digit.1, UInt32.le_iff_toNat_le.mp digit.2⟩

theorem asciiDigit_of_isDigit {c : Char} (digit : c.isDigit = true) :
    asciiDigit c = some (c.toNat - '0'.toNat) := by
  have range := toNat_of_isDigit digit
  simp [asciiDigit, isAsciiDigit, range]

/-- Plain digits are read in base ten. -/
theorem readDigits_plain (digits : List Char) (plain : ∀ c ∈ digits, c.isDigit = true) :
    ∀ (after : Bool) (value : Nat), (after = true ∨ digits ≠ []) →
      readDigits asciiDigit 10 after value digits =
        some (Nat.ofDigitChars 10 digits value) := by
  induction digits with
  | nil =>
      intro after value some_
      simp only [ne_eq, not_true_eq_false, or_false] at some_
      simp [readDigits, some_, Nat.ofDigitChars]
  | cons c rest ih =>
      intro after value _
      have digit := plain c List.mem_cons_self
      have other : c ≠ '_' := by
        rintro rfl
        cases digit
      rw [readDigits, asciiDigit_of_isDigit digit]
      · simp only [Nat.ofDigitChars, List.foldl_cons]
        rw [ih (fun c' member => plain c' (List.mem_cons_of_mem _ member)) _ _ (.inl rfl),
          Nat.mul_comm]
        rfl
      · exact other

theorem stripWhere_of_solid {drop : Char → Bool} {text : List Char}
    (solid : ∀ c ∈ text, drop c = false) : stripWhere drop text = text := by
  have front : ∀ l : List Char, (∀ c ∈ l, drop c = false) → l.dropWhile drop = l := by
    intro l solid
    cases l with
    | nil => rfl
    | cons c rest => simp [solid c List.mem_cons_self]
  rw [stripWhere, front text solid, front, List.reverse_reverse]
  exact fun c member => solid c (List.mem_reverse.mp member)

/-- Visible ASCII is read as it stands. -/
theorem intText_of_visible {text : List Char}
    (visible : ∀ c ∈ text, 0x20 < c.toNat ∧ c.toNat < 127) : intText text = text := by
  have same : text.map toAscii = text := by
    rw [List.map_congr_left (g := id), List.map_id]
    intro c member
    exact if_pos (visible c member).2
  rw [intText, same]
  refine stripWhere_of_solid fun c member => ?_
  have above := (visible c member).1
  have solid : c ≠ ' ' := by
    rintro rfl
    exact absurd above (by decide)
  simp only [isAsciiSpace, Bool.or_eq_false_iff, Bool.and_eq_false_iff, decide_eq_false_iff_not]
  exact ⟨.inr (by omega), solid⟩

theorem visible_of_isDigit {c : Char} (digit : c.isDigit = true) :
    0x20 < c.toNat ∧ c.toNat < 127 := by
  have range := toNat_of_isDigit digit
  omega

theorem readSign_of_digits {digits : List Char} (plain : ∀ c ∈ digits, c.isDigit = true) :
    readSign digits = (false, digits) := by
  unfold readSign
  split
  · exact absurd (plain '-' List.mem_cons_self) (by decide)
  · exact absurd (plain '+' List.mem_cons_self) (by decide)
  · rfl

theorem number_natCast (n : Nat) : Json.number (n : Int) = Nat.toDigits 10 n := by
  simp [Json.number, Int.repr, Nat.repr]

/-- Reading back the text of a number below the digit limit. -/
theorem intOfText_number {i : Int} (natural : 0 ≤ i)
    (short : (Json.number i).length ≤ maxStrDigits) : intOfText (Json.number i) = some i := by
  obtain ⟨n, rfl⟩ := Int.eq_ofNat_of_zero_le natural
  rw [number_natCast] at short ⊢
  have plain : ∀ c ∈ Nat.toDigits 10 n, c.isDigit = true :=
    fun c member => Nat.isDigit_of_mem_toDigits (by decide) (by decide) member
  have read := readDigits_plain _ plain false 0 (.inr Nat.toDigits_ne_nil)
  have bounded : ¬ ((Nat.toDigits 10 n).filter (· ≠ '_')).length > maxStrDigits :=
    not_lt.mpr ((List.length_filter_le _ _).trans short)
  unfold intOfText
  rw [intText_of_visible fun c member => visible_of_isDigit (plain c member),
    readSign_of_digits plain]
  simp only
  rw [if_neg bounded, read, Nat.ofDigitChars_ten_toDigits]
  rfl

/-- `int(text, 16)` of a text without a minus sign. -/
def intOfHex (text : List Char) : Option Nat :=
  let text := intText text
  let text := match text with
    | '+' :: rest => rest
    | text => text
  match text with
  | '0' :: x :: rest =>
      if x = 'x' ∨ x = 'X' then
        (if rest = [] then none else readDigits hexDigit 16 true 0 rest)
      else readDigits hexDigit 16 false 0 text
  | text => readDigits hexDigit 16 false 0 text

/-- `uuid.UUID(text)`; `none` is its `ValueError`. -/
def uuidOfText (text : List Char) : Option UUID :=
  let hex := remove "uuid:".toList (remove "urn:".toList text)
  let hex := remove ['-'] (stripWhere (fun c => c = '\x7b' || c = '\x7d') hex)
  if hex.length ≠ 32 then none
  else (intOfHex hex).map (BitVec.ofNat 128)

/-- A foreign zero and an `x` are a prefix; a file separator is no white space here. -/
example : uuidOfText ('\u0660' :: 'x' :: List.replicate 30 '1') =
      uuidOfText ('0' :: '0' :: List.replicate 30 '1') ∧
    uuidOfText ('\x1c' :: List.replicate 31 '1') = none := by decide +kernel

example : uuidOfText "11111111-1111-4111-8111-111111111111".toList =
    uuidOfText "\x7burn:uuid:11111111111141118111111111111111\x7d".toList := by decide +kernel

end Sluice.Kernel
