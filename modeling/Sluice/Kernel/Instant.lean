/-
# Kernel.Instant -- instants, numbers of seconds, and the millisecond stamp

Instants and time spans are integers counting microseconds (instants from the epoch
on), the resolution of the program's `datetime` and `timedelta`.  An instant is a
`datetime` only in the years 1 to 9999 (`IsDatetime`), and arithmetic that leaves them
raises.

A number of seconds is what a caller hands over, a Python integer or a binary64 number
(`Seconds`).  `timedelta(seconds=x)` and PostgreSQL's `make_interval(secs => x)` both turn
it into microseconds, and they do not round alike.

`timestampMs` is `int(t.timestamp() * 1000)`: a correctly rounded division to a
binary64 number of seconds, a correctly rounded multiplication, and truncation.  It
is not the exact number of whole milliseconds.
-/
import Mathlib.Algebra.Order.Ring.Int

namespace Sluice.Kernel

set_option autoImplicit false

def millisecond : Int := 1000

def second : Int := 1000000

/-! ## Binary64 rounding -/

/-- `n / d` rounded to an integer, ties to even. -/
def roundHalfEven (n d : Nat) : Nat :=
  if 2 * (n % d) < d then n / d
  else if d < 2 * (n % d) then n / d + 1
  else if n / d % 2 = 0 then n / d
  else n / d + 1

/-- The exponent `e` with `2 ^ e ≤ n / d < 2 ^ (e + 1)`. -/
def binaryExponent (n d : Nat) : Int :=
  let guess : Int := (Nat.log2 n : Int) - Nat.log2 d
  let reached : Bool := if 0 ≤ guess then decide (d * 2 ^ guess.toNat ≤ n)
    else decide (d ≤ n * 2 ^ (-guess).toNat)
  if reached then guess else guess - 1

/-- The binary64 value nearest to `n / d`, as a fraction; normal range only. -/
def binary64 (n d : Nat) : Nat × Nat :=
  if n = 0 then (0, 1)
  else
    let shift := binaryExponent n d - 52
    if 0 ≤ shift then (roundHalfEven n (d * 2 ^ shift.toNat) * 2 ^ shift.toNat, 1)
    else (roundHalfEven (n * 2 ^ (-shift).toNat) d, 2 ^ (-shift).toNat)

/-- `int(t.timestamp() * 1000)`. -/
def timestampMs (t : Int) : Int :=
  let seconds := binary64 t.natAbs 1000000
  let millis := binary64 (seconds.1 * 1000) seconds.2
  t.sign * (millis.1 / millis.2 : Nat)

/-- Rounding at work: one thousand and one milliseconds are stamped as one thousand. -/
example : timestampMs 1001000 = 1000 := by decide +kernel

/-! ## The years 1 to 9999 -/

def datetimeMin : Int := -62135596800000000

def datetimeMax : Int := 253402300799999999

/-- `datetime` has such a value. -/
def IsDatetime (t : Int) : Prop := datetimeMin ≤ t ∧ t ≤ datetimeMax

instance (t : Int) : Decidable (IsDatetime t) :=
  inferInstanceAs (Decidable (_ ∧ _))

/-! ## Numbers of seconds -/

/-- A Python number of seconds.  The finite ones are `mantissa * 2 ^ exponent`: an integer
has exponent 0. -/
inductive Seconds where
  | finite (mantissa exponent : Int)
  | infinite
  | nan
  deriving DecidableEq, Repr

namespace Seconds

/-- The size of `mantissa * 2 ^ exponent`, as a fraction. -/
def size (mantissa exponent : Int) : Nat × Nat :=
  (mantissa.natAbs * 2 ^ exponent.toNat, 2 ^ (-exponent).toNat)

/-- The microseconds of `timedelta(seconds=x)`: whole seconds count exactly, the rest times
`10 ^ 6` is a binary64 product, and their sum is rounded.  `none` is an exception; the limit
of `timedelta` itself lies far beyond that of `datetime`. -/
def timedelta : Seconds → Option Int
  | .finite mantissa exponent =>
      let (n, d) := size mantissa exponent
      let rest := binary64 (n % d * 1000000) d
      some (mantissa.sign * (roundHalfEven (n / d * 1000000 * rest.2 + rest.1) rest.2 : Nat))
  | .infinite | .nan => none

/-- The microseconds of `make_interval(secs => x)`: the binary64 product of the number and
`10 ^ 6`, rounded; they have to fit 64 bits. -/
def makeInterval : Seconds → Option Int
  | .finite mantissa exponent =>
      let (n, d) := size mantissa exponent
      let x := binary64 n d
      let product := binary64 (x.1 * 1000000) x.2
      let us : Int := mantissa.sign * (roundHalfEven product.1 product.2 : Nat)
      if -2 ^ 63 ≤ us ∧ us < 2 ^ 63 then some us else none
  | .infinite | .nan => none

/-- `now + timedelta(seconds=x)`, or `none` if that raises. -/
def after (x : Seconds) (now : Int) : Option Int :=
  x.timedelta.bind fun span => if IsDatetime (now + span) then some (now + span) else none

theorem after_eq_some_iff {x : Seconds} {now expiry : Int} :
    x.after now = some expiry ↔
      ∃ span, x.timedelta = some span ∧ expiry = now + span ∧ IsDatetime expiry := by
  unfold after
  constructor
  · intro lands
    obtain ⟨span, spans, lands⟩ := Option.bind_eq_some_iff.mp lands
    split at lands
    · cases lands
      exact ⟨span, spans, rfl, ‹_›⟩
    · cases lands
  · rintro ⟨span, spans, rfl, valid⟩
    rw [spans, Option.bind_some, if_pos valid]

end Seconds

/-- The two roundings differ: 30.0000015 seconds are 30000001 or 30000002 microseconds. -/
example : Seconds.timedelta (.finite 8444249723532145 (-48)) = some 30000001 ∧
    Seconds.makeInterval (.finite 8444249723532145 (-48)) = some 30000002 := by decide +kernel

end Sluice.Kernel
