/-
# Theory.JsonText -- compact JSON text can be read back in one way only

Compact ASCII JSON of the values a canonical form is built from: integers, strings
and objects, written without blanks.  Every character outside the printable ASCII
range is escaped, the seven characters with a short escape by it, the rest by their
UTF-16 code units, so a character beyond the basic plane takes two escapes.

* `unescape_escapeChar` reads one character back off the front of any text; it is
  what makes the variable-length escapes a prefix code.
* `quote_prefixFree`: a quoted string ends where it says it ends, whatever its
  content imitates.
* `text_unique`: two values followed by a delimiter have one text only if they are
  one value; `text_injective` is the closed form, and `text_ascii` says the text
  survives an ASCII encoder.
-/
import Mathlib.Tactic.IntervalCases
import Std.Data.String.ToInt

namespace Sluice.Theory.Json

set_option autoImplicit false

/-! ## Characters -/

/-- The character after the backslash of a two-character escape. -/
def shortEscape : Char → Option Char
  | '"' => some '"'
  | '\\' => some '\\'
  | '\n' => some 'n'
  | '\r' => some 'r'
  | '\t' => some 't'
  | '\x0c' => some 'f'
  | '\x08' => some 'b'
  | _ => none

/-- Four lower-case hexadecimal digits. -/
def hex4 (n : Nat) : List Char :=
  [(n / 4096 % 16).digitChar, (n / 256 % 16).digitChar, (n / 16 % 16).digitChar,
    (n % 16).digitChar]

def escapeChar (c : Char) : List Char :=
  match shortEscape c with
  | some e => ['\\', e]
  | none =>
      if 0x20 ≤ c.toNat ∧ c.toNat ≤ 0x7e then [c]
      else if c.toNat < 0x10000 then '\\' :: 'u' :: hex4 c.toNat
      else
        -- a surrogate pair
        '\\' :: 'u' :: hex4 (0xd800 + (c.toNat - 0x10000) / 0x400) ++
          '\\' :: 'u' :: hex4 (0xdc00 + (c.toNat - 0x10000) % 0x400)

def hexValue (c : Char) : Nat := if c.toNat < 0x61 then c.toNat - 0x30 else c.toNat - 0x57

def hexValue4 (a b c d : Char) : Nat :=
  hexValue a * 4096 + hexValue b * 256 + hexValue c * 16 + hexValue d

def shortUnescape : Char → Char
  | 'n' => '\n'
  | 'r' => '\r'
  | 't' => '\t'
  | 'f' => '\x0c'
  | 'b' => '\x08'
  | e => e

/-- Read one character off the front. -/
def unescape : List Char → Option (Char × List Char)
  | '\\' :: 'u' :: a :: b :: c :: d :: rest =>
      if 0xd800 ≤ hexValue4 a b c d ∧ hexValue4 a b c d < 0xdc00 then
        match rest with
        | '\\' :: 'u' :: a' :: b' :: c' :: d' :: rest' =>
            some (Char.ofNat (0x10000 + (hexValue4 a b c d - 0xd800) * 0x400 +
              (hexValue4 a' b' c' d' - 0xdc00)), rest')
        | _ => none
      else some (Char.ofNat (hexValue4 a b c d), rest)
  | '\\' :: e :: rest => some (shortUnescape e, rest)
  | c :: rest => some (c, rest)
  | [] => none

theorem hexValue_digitChar {d : Nat} (small : d < 16) : hexValue d.digitChar = d := by
  interval_cases d <;> rfl

theorem hexValue4_hex4 {n : Nat} (small : n < 0x10000) :
    hexValue4 (n / 4096 % 16).digitChar (n / 256 % 16).digitChar (n / 16 % 16).digitChar
      (n % 16).digitChar = n := by
  simp only [hexValue4, hexValue_digitChar (Nat.mod_lt _ (by decide : 0 < 16))]
  omega

/-- No character is a surrogate. -/
theorem char_range (c : Char) :
    c.toNat < 0xd800 ∨ (0xdfff < c.toNat ∧ c.toNat < 0x110000) := by
  have valid := c.valid
  simp only [UInt32.isValidChar, Nat.isValidChar] at valid
  exact valid

theorem shortEscape_ne_u {c e : Char} (short : shortEscape c = some e) : e ≠ 'u' := by
  unfold shortEscape at short
  split at short <;> cases short <;> decide

theorem shortUnescape_shortEscape {c e : Char} (short : shortEscape c = some e) :
    shortUnescape e = c := by
  unfold shortEscape at short
  split at short <;> cases short <;> rfl

theorem unescape_short {e : Char} (ne : e ≠ 'u') (rest : List Char) :
    unescape ('\\' :: e :: rest) = some (shortUnescape e, rest) := by
  unfold unescape
  split
  · rename_i same
    cases same
    exact absurd rfl ne
  · rename_i same
    cases same
    rfl
  · rename_i other same
    cases same
    exact absurd rfl (other _ _ rfl)
  · rename_i same
    cases same

theorem unescape_plain {c : Char} (ne : c ≠ '\\') (rest : List Char) :
    unescape (c :: rest) = some (c, rest) := by
  unfold unescape
  split
  · rename_i same
    cases same
    exact absurd rfl ne
  · rename_i same
    cases same
    exact absurd rfl ne
  · rename_i same
    cases same
    rfl
  · rename_i same
    cases same

theorem unescape_unit {n : Nat} (small : n < 0x10000) (rest : List Char) :
    unescape ('\\' :: 'u' :: hex4 n ++ rest) =
      if 0xd800 ≤ n ∧ n < 0xdc00 then
        match rest with
        | '\\' :: 'u' :: a' :: b' :: c' :: d' :: rest' =>
            some (Char.ofNat (0x10000 + (n - 0xd800) * 0x400 + (hexValue4 a' b' c' d' - 0xdc00)),
              rest')
        | _ => none
      else some (Char.ofNat n, rest) := by
  simp only [hex4, List.cons_append, List.nil_append]
  conv_lhs => unfold unescape
  simp only [hexValue4_hex4 small]

/-- One escaped character can be read back off any text. -/
theorem unescape_escapeChar (c : Char) (rest : List Char) :
    unescape (escapeChar c ++ rest) = some (c, rest) := by
  unfold escapeChar
  split
  · rename_i e short
    rw [List.cons_append, List.cons_append, List.nil_append,
      unescape_short (shortEscape_ne_u short), shortUnescape_shortEscape short]
  · rename_i long
    split
    · have ne : c ≠ '\\' := by
        rintro rfl
        exact absurd long (by decide)
      rw [List.cons_append, List.nil_append, unescape_plain ne]
    · have range := char_range c
      split
      · rename_i basic
        rw [unescape_unit basic, if_neg (by omega), Char.ofNat_toNat]
      · rename_i wide
        rw [List.append_assoc, unescape_unit (by omega), if_pos (by omega)]
        simp only [List.cons_append, hex4, List.nil_append]
        rw [hexValue4_hex4 (by omega)]
        have whole : 0x10000 + (0xd800 + (c.toNat - 0x10000) / 0x400 - 0xd800) * 0x400 +
            (0xdc00 + (c.toNat - 0x10000) % 0x400 - 0xdc00) = c.toNat := by omega
        rw [whole, Char.ofNat_toNat]

/-! ## Strings -/

def quote (s : String) : List Char := '"' :: (s.toList.flatMap escapeChar ++ ['"'])

/-- No escaped character starts with the closing quote. -/
theorem escapeChar_head (c : Char) : ∃ h tail, escapeChar c = h :: tail ∧ h ≠ '"' := by
  unfold escapeChar
  split
  · exact ⟨_, _, rfl, by decide⟩
  · rename_i long
    split
    · refine ⟨_, _, rfl, ?_⟩
      rintro rfl
      exact absurd long (by decide)
    · split
      · exact ⟨_, _, rfl, by decide⟩
      · exact ⟨_, _, rfl, by decide⟩

theorem escaped_unique :
    ∀ (cs ds r s : List Char),
      cs.flatMap escapeChar ++ '"' :: r = ds.flatMap escapeChar ++ '"' :: s → cs = ds ∧ r = s
  | [], [], r, s, same => by simpa using same
  | [], d :: ds, r, s, same => by
      obtain ⟨h, tail, head, ne⟩ := escapeChar_head d
      simp only [List.flatMap_nil, List.nil_append, List.flatMap_cons, head, List.cons_append,
        List.cons.injEq] at same
      exact absurd same.1.symm ne
  | c :: cs, [], r, s, same => by
      obtain ⟨h, tail, head, ne⟩ := escapeChar_head c
      simp only [List.flatMap_nil, List.nil_append, List.flatMap_cons, head, List.cons_append,
        List.cons.injEq] at same
      exact absurd same.1 ne
  | c :: cs, d :: ds, r, s, same => by
      simp only [List.flatMap_cons, List.append_assoc] at same
      have read := congrArg unescape same
      rw [unescape_escapeChar, unescape_escapeChar] at read
      simp only [Option.some.injEq, Prod.mk.injEq] at read
      obtain ⟨tails, rests⟩ := escaped_unique cs ds r s read.2
      exact ⟨by rw [read.1, tails], rests⟩

/-- A quoted string says where it ends. -/
theorem quote_prefixFree {a b : String} {r s : List Char} (same : quote a ++ r = quote b ++ s) :
    a = b ∧ r = s := by
  simp only [quote, List.cons_append, List.append_assoc, List.nil_append, List.cons.injEq,
    true_and] at same
  obtain ⟨chars, rests⟩ := escaped_unique _ _ _ _ same
  exact ⟨String.toList_injective chars, rests⟩

/-! ## Numbers -/

def number (i : Int) : List Char := i.repr.toList

def numeral (c : Char) : Bool := c.isDigit || c = '-'

theorem numeral_of_mem_toDigits {n : Nat} {c : Char} (present : c ∈ Nat.toDigits 10 n) :
    numeral c = true := by
  simp [numeral, Nat.isDigit_of_mem_toDigits (by decide) (by decide) present]

theorem numeral_of_mem {i : Int} {c : Char} (present : c ∈ number i) : numeral c = true := by
  cases i with
  | ofNat n =>
      simp only [number, Int.repr, Nat.repr, String.toList_ofList] at present
      exact numeral_of_mem_toDigits present
  | negSucc n =>
      simp only [number, Int.repr, Nat.repr, String.toList_append, String.toList_ofList,
        List.mem_append] at present
      rcases present with sign | digit
      · have : c = '-' := by simpa using sign
        rw [this]; decide
      · exact numeral_of_mem_toDigits digit

theorem number_ne_nil (i : Int) : number i ≠ [] := by
  cases i with
  | ofNat n =>
      simp only [number, Int.repr, Nat.repr, String.toList_ofList]
      exact Nat.toDigits_ne_nil
  | negSucc n =>
      simp [number, Int.repr, String.toList_append]

/-- What may follow a number. -/
def Delimited (r : List Char) : Prop := ∀ c tail, r = c :: tail → numeral c = false

theorem takeWhile_number (i : Int) {r : List Char} (delimited : Delimited r) :
    (number i ++ r).takeWhile numeral = number i := by
  have stop : r.takeWhile numeral = [] := by
    cases r with
    | nil => rfl
    | cons c tail => simp [delimited c tail rfl]
  rw [List.takeWhile_append_of_pos (fun c present => numeral_of_mem present), stop,
    List.append_nil]

theorem number_unique {i j : Int} {r s : List Char} (before : Delimited r) (after : Delimited s)
    (same : number i ++ r = number j ++ s) : i = j ∧ r = s := by
  have texts : number i = number j := by
    rw [← takeWhile_number i before, same, takeWhile_number j after]
  refine ⟨Int.repr_injective (String.toList_injective texts), ?_⟩
  rw [texts] at same
  exact List.append_cancel_left same

/-! ## Values -/

mutual

/-- Integers, strings, and objects with their keys in the order they are written. -/
inductive Value where
  | num (i : Int)
  | str (s : String)
  | obj (fields : Fields)

inductive Fields where
  | nil
  | cons (key : String) (value : Value) (rest : Fields)

end

mutual

/-- The compact text: separators are a comma and a colon. -/
def Value.text : Value → List Char
  | .num i => number i
  | .str s => quote s
  | .obj .nil => ['\x7b', '\x7d']
  | .obj (.cons key value rest) => '\x7b' :: (quote key ++ ':' :: value.text ++ rest.text)

/-- The fields after the first, with the closing brace. -/
def Fields.text : Fields → List Char
  | .nil => ['\x7d']
  | .cons key value rest => ',' :: (quote key ++ ':' :: value.text ++ rest.text)

end

theorem delimited_cons {c : Char} (other : numeral c = false) (tail : List Char) :
    Delimited (c :: tail) := by
  rintro _ _ same
  cases same
  exact other

theorem Fields.text_delimited (fields : Fields) (r : List Char) : Delimited (fields.text ++ r) := by
  cases fields with
  | nil => exact delimited_cons (by decide) _
  | cons key value rest => exact delimited_cons (by decide) _

/-- A number does not start like a string or an object. -/
theorem number_head (i : Int) (r s : List Char) {c : Char} (other : numeral c = false) :
    number i ++ r ≠ c :: s := by
  intro same
  cases shape : number i with
  | nil => exact number_ne_nil i shape
  | cons h tail =>
      rw [shape, List.cons_append, List.cons.injEq] at same
      have : numeral h = true := numeral_of_mem (i := i) (by rw [shape]; exact List.mem_cons_self)
      rw [same.1, other] at this
      cases this

mutual

/-- Two values followed by delimiters and written alike are one value. -/
theorem text_unique : ∀ (v w : Value) (r s : List Char), Delimited r → Delimited s →
    v.text ++ r = w.text ++ s → v = w ∧ r = s
  | .num i, .num j, r, s, before, after, same => by
      obtain ⟨rfl, rests⟩ := number_unique before after same
      exact ⟨rfl, rests⟩
  | .num i, .str t, r, s, _, _, same => absurd same (number_head i r _ (by decide))
  | .num i, .obj .nil, r, s, _, _, same => absurd same (number_head i r _ (by decide))
  | .num i, .obj (.cons key value rest), r, s, _, _, same =>
      absurd same (number_head i r _ (by decide))
  | .str t, .num j, r, s, _, _, same => absurd same.symm (number_head j s _ (by decide))
  | .str t, .str u, r, s, _, _, same => by
      obtain ⟨rfl, rests⟩ := quote_prefixFree same
      exact ⟨rfl, rests⟩
  | .str t, .obj .nil, r, s, _, _, same => by simp [Value.text, quote] at same
  | .str t, .obj (.cons key value rest), r, s, _, _, same => by simp [Value.text, quote] at same
  | .obj .nil, .num j, r, s, _, _, same => absurd same.symm (number_head j s _ (by decide))
  | .obj .nil, .str u, r, s, _, _, same => by simp [Value.text, quote] at same
  | .obj .nil, .obj .nil, r, s, _, _, same => by simpa [Value.text] using same
  | .obj .nil, .obj (.cons key value rest), r, s, _, _, same => by
      simp [Value.text, quote] at same
  | .obj (.cons key value rest), .num j, r, s, _, _, same =>
      absurd same.symm (number_head j s _ (by decide))
  | .obj (.cons key value rest), .str u, r, s, _, _, same => by simp [Value.text, quote] at same
  | .obj (.cons key value rest), .obj .nil, r, s, _, _, same => by
      simp [Value.text, quote] at same
  | .obj (.cons key value rest), .obj (.cons key' value' rest'), r, s, before, after, same => by
      simp only [Value.text, List.cons_append, List.append_assoc, List.cons.injEq,
        true_and] at same
      obtain ⟨rfl, afterKey⟩ := quote_prefixFree same
      obtain ⟨rfl, afterValue⟩ := text_unique value value' _ _ (rest.text_delimited r)
        (rest'.text_delimited s) (List.cons.inj afterKey).2
      obtain ⟨rfl, rests⟩ := fields_unique rest rest' r s before after afterValue
      exact ⟨rfl, rests⟩

theorem fields_unique : ∀ (f g : Fields) (r s : List Char), Delimited r → Delimited s →
    f.text ++ r = g.text ++ s → f = g ∧ r = s
  | .nil, .nil, r, s, _, _, same => by simpa [Fields.text] using same
  | .nil, .cons key value rest, r, s, _, _, same => by simp [Fields.text] at same
  | .cons key value rest, .nil, r, s, _, _, same => by simp [Fields.text] at same
  | .cons key value rest, .cons key' value' rest', r, s, before, after, same => by
      simp only [Fields.text, List.cons_append, List.append_assoc, List.cons.injEq,
        true_and] at same
      obtain ⟨rfl, afterKey⟩ := quote_prefixFree same
      obtain ⟨rfl, afterValue⟩ := text_unique value value' _ _ (rest.text_delimited r)
        (rest'.text_delimited s) (List.cons.inj afterKey).2
      obtain ⟨rfl, rests⟩ := fields_unique rest rest' r s before after afterValue
      exact ⟨rfl, rests⟩

end

theorem text_injective {v w : Value} (same : v.text = w.text) : v = w := by
  have nothing : Delimited [] := by
    rintro _ _ same
    cases same
  exact (text_unique v w [] [] nothing nothing (by rw [same])).1

/-! ## The text is ASCII -/

def Ascii (text : List Char) : Prop := ∀ c ∈ text, c.toNat < 128

theorem Ascii.cons {c : Char} {text : List Char} (small : c.toNat < 128) (rest : Ascii text) :
    Ascii (c :: text) := by
  intro d present
  rcases List.mem_cons.mp present with rfl | later
  · exact small
  · exact rest d later

theorem Ascii.append {first second : List Char} (left : Ascii first) (right : Ascii second) :
    Ascii (first ++ second) := by
  intro d present
  rcases List.mem_append.mp present with here | there
  · exact left d here
  · exact right d there

theorem digitChar_ascii {d : Nat} (small : d < 16) : d.digitChar.toNat < 128 := by
  interval_cases d <;> decide

theorem hex4_ascii (n : Nat) : Ascii (hex4 n) := by
  intro c present
  simp only [hex4, List.mem_cons, List.not_mem_nil, or_false] at present
  rcases present with rfl | rfl | rfl | rfl <;> exact digitChar_ascii (Nat.mod_lt _ (by decide))

theorem shortEscape_ascii {c e : Char} (short : shortEscape c = some e) : e.toNat < 128 := by
  unfold shortEscape at short
  split at short <;> cases short <;> decide

theorem escapeChar_ascii (c : Char) : Ascii (escapeChar c) := by
  have nothing : Ascii [] := fun d present => absurd present (by simp)
  unfold escapeChar
  split
  · rename_i e short
    exact .cons (by decide) (.cons (shortEscape_ascii short) nothing)
  · split
    · rename_i printable
      exact .cons (by omega) nothing
    · split
      · exact .cons (by decide) (.cons (by decide) (hex4_ascii _))
      · exact .append (.cons (by decide) (.cons (by decide) (hex4_ascii _)))
          (.cons (by decide) (.cons (by decide) (hex4_ascii _)))

theorem quote_ascii (s : String) : Ascii (quote s) := by
  refine .cons (by decide) (.append ?_ ?_)
  · intro c present
    obtain ⟨d, _, escaped⟩ := List.mem_flatMap.mp present
    exact escapeChar_ascii d c escaped
  · intro c present
    rw [List.mem_singleton.mp present]
    decide

theorem numeral_ascii {c : Char} (is : numeral c = true) : c.toNat < 128 := by
  simp only [numeral, Char.isDigit, Bool.or_eq_true, Bool.and_eq_true, decide_eq_true_eq] at is
  rcases is with digit | rfl
  · have upper := digit.2
    have : c.toNat ≤ 57 := upper
    omega
  · decide

mutual

theorem text_ascii : ∀ v : Value, Ascii v.text
  | .num i => fun _ present => numeral_ascii (numeral_of_mem present)
  | .str s => quote_ascii s
  | .obj .nil => by
      intro c present
      simp only [Value.text, List.mem_cons, List.not_mem_nil, or_false] at present
      rcases present with rfl | rfl <;> decide
  | .obj (.cons key value rest) =>
      .cons (by decide) (.append (.append (quote_ascii key)
        (.cons (by decide) (text_ascii value))) (fields_ascii rest))

theorem fields_ascii : ∀ f : Fields, Ascii f.text
  | .nil => by
      intro c present
      rw [List.mem_singleton.mp present]
      decide
  | .cons key value rest =>
      .cons (by decide) (.append (.append (quote_ascii key)
        (.cons (by decide) (text_ascii value))) (fields_ascii rest))

end

end Sluice.Theory.Json
