/-
# Kernel.Timestamp -- what a millisecond stamp can tell apart

`timestampMs` rounds twice in binary64 and then truncates, so two instants a millisecond
apart can get one stamp.  Two facts remain, and they are all that is needed of it:

* stamps never fall (`timestampMs_mono`), since rounding is monotone;
* instants two milliseconds apart get different stamps (`timestampMs_lt`) as long as they
  are `datetime` values: up to the year 9999 the two roundings together are off by less
  than a tenth of a millisecond.
-/
import Sluice.Theory.Rounding
import Sluice.Kernel.Config

namespace Sluice.Kernel

open Sluice.Theory

set_option autoImplicit false

/-! ## The code rounds to nearest -/

theorem cast_div_add_mod (n : ℕ) {d : ℕ} (pos : 0 < d) :
    (n : ℚ) / d = (n / d : ℕ) + (n % d : ℕ) / (d : ℚ) := by
  have pos' : (d : ℚ) ≠ 0 := by exact_mod_cast pos.ne'
  have whole : (d : ℚ) * (n / d : ℕ) + (n % d : ℕ) = n := by exact_mod_cast Nat.div_add_mod n d
  rw [← whole, add_div, mul_div_cancel_left₀ _ pos']

theorem fraction_bounds (n : ℕ) {d : ℕ} (pos : 0 < d) :
    (0 : ℚ) ≤ (n % d : ℕ) / (d : ℚ) ∧ ((n % d : ℕ) : ℚ) / d < 1 := by
  have pos' : (0 : ℚ) < d := by exact_mod_cast pos
  refine ⟨by positivity, ?_⟩
  rw [div_lt_one pos']
  exact_mod_cast Nat.mod_lt n pos

theorem roundHalfEven_nearest (n : ℕ) {d : ℕ} (pos : 0 < d) :
    Nearest ((n : ℚ) / d) (roundHalfEven n d) := by
  have pos' : (0 : ℚ) < d := by exact_mod_cast pos
  obtain ⟨low, high⟩ := fraction_bounds n pos
  have next : ((n / d + 1 : ℕ) : ℚ) = (n / d : ℕ) + 1 := Nat.cast_succ _
  rw [cast_div_add_mod n pos]
  unfold roundHalfEven
  split_ifs with less more even
  · have less : ((n % d : ℕ) : ℚ) / d < 1 / 2 := by
      rw [div_lt_div_iff₀ pos' two_pos]
      exact_mod_cast (by omega : n % d * 2 < 1 * d)
    refine ⟨by linarith, by linarith, fun tie => ?_⟩
    rcases tie with tie | tie <;> linarith
  · have more : (1 : ℚ) / 2 < (n % d : ℕ) / d := by
      rw [div_lt_div_iff₀ two_pos pos']
      exact_mod_cast (by omega : 1 * d < n % d * 2)
    refine ⟨by linarith, by linarith, fun tie => ?_⟩
    rcases tie with tie | tie <;> linarith
  all_goals
    have half : ((n % d : ℕ) : ℚ) / d = 1 / 2 := by
      rw [div_eq_div_iff pos'.ne' two_ne_zero]
      exact_mod_cast (by omega : n % d * 2 = 1 * d)
  · exact ⟨by linarith, by linarith, fun _ => even⟩
  · exact ⟨by linarith, by linarith, fun _ => by omega⟩

theorem log2_spec {n : ℕ} (pos : 0 < n) :
    (2 : ℚ) ^ (Nat.log2 n : ℤ) ≤ n ∧ (n : ℚ) < 2 ^ ((Nat.log2 n : ℤ) + 1) := by
  have low : 2 ^ Nat.log2 n ≤ n := Nat.log2_self_le pos.ne'
  have high : n < 2 ^ (Nat.log2 n + 1) := Nat.lt_log2_self
  constructor
  · rw [zpow_natCast]
    exact_mod_cast low
  · rw [← Nat.cast_succ, zpow_natCast]
    exact_mod_cast high

theorem reached_iff {n d : ℕ} (denominator : 0 < d) (e : ℤ) :
    (if 0 ≤ e then decide (d * 2 ^ e.toNat ≤ n) else decide (d ≤ n * 2 ^ (-e).toNat)) = true ↔
      (2 : ℚ) ^ e ≤ n / d := by
  have denominator' : (0 : ℚ) < d := by exact_mod_cast denominator
  rw [le_div_iff₀ denominator']
  split_ifs with sign
  · obtain ⟨k, rfl⟩ := Int.eq_ofNat_of_zero_le sign
    rw [decide_eq_true_eq, Int.toNat_natCast, zpow_natCast, mul_comm]
    exact_mod_cast Iff.rfl
  · obtain ⟨k, rfl⟩ : ∃ k : ℕ, e = -k := ⟨(-e).toNat, by omega⟩
    rw [decide_eq_true_eq, neg_neg, Int.toNat_natCast, zpow_neg, zpow_natCast,
      inv_mul_le_iff₀ (by positivity), mul_comm n]
    exact_mod_cast Iff.rfl

theorem binaryExponent_spec {n d : ℕ} (numerator : 0 < n) (denominator : 0 < d) :
    (2 : ℚ) ^ binaryExponent n d ≤ n / d ∧ (n : ℚ) / d < 2 ^ (binaryExponent n d + 1) := by
  have denominator' : (0 : ℚ) < d := by exact_mod_cast denominator
  obtain ⟨lowN, highN⟩ := log2_spec numerator
  obtain ⟨lowD, highD⟩ := log2_spec denominator
  -- the guess from the bit lengths is right or one too large
  have above : (n : ℚ) / d < 2 ^ ((Nat.log2 n : ℤ) - Nat.log2 d + 1) := by
    rw [div_lt_iff₀ denominator']
    calc (n : ℚ) < 2 ^ ((Nat.log2 n : ℤ) + 1) := highN
      _ = 2 ^ ((Nat.log2 n : ℤ) - Nat.log2 d + 1) * 2 ^ (Nat.log2 d : ℤ) := by
          rw [← zpow_add₀ two_ne_zero]
          congr 1; ring
      _ ≤ 2 ^ ((Nat.log2 n : ℤ) - Nat.log2 d + 1) * d := by gcongr
  have below : (2 : ℚ) ^ ((Nat.log2 n : ℤ) - Nat.log2 d - 1) ≤ n / d := by
    rw [le_div_iff₀ denominator']
    calc (2 : ℚ) ^ ((Nat.log2 n : ℤ) - Nat.log2 d - 1) * d
        ≤ 2 ^ ((Nat.log2 n : ℤ) - Nat.log2 d - 1) * 2 ^ ((Nat.log2 d : ℤ) + 1) := by gcongr
      _ = 2 ^ (Nat.log2 n : ℤ) := by
          rw [← zpow_add₀ two_ne_zero]
          congr 1; ring
      _ ≤ n := lowN
  unfold binaryExponent
  dsimp only
  simp only [reached_iff denominator]
  by_cases reached : (2 : ℚ) ^ ((Nat.log2 n : ℤ) - Nat.log2 d) ≤ n / d
  · rw [if_pos reached]
    exact ⟨reached, above⟩
  · rw [if_neg reached, sub_add_cancel]
    exact ⟨below, not_le.mp reached⟩

theorem binary64_rounded {n d : ℕ} (numerator : 0 < n) (denominator : 0 < d) :
    0 < (binary64 n d).2 ∧
      Rounded 52 ((n : ℚ) / d) ((binary64 n d).1 / (binary64 n d).2) := by
  obtain ⟨low, high⟩ := binaryExponent_spec numerator denominator
  have denominator' : (d : ℚ) ≠ 0 := by exact_mod_cast denominator.ne'
  unfold binary64
  rw [if_neg numerator.ne']
  dsimp only
  split_ifs with shift
  · refine ⟨one_pos, binaryExponent n d,
      roundHalfEven n (d * 2 ^ (binaryExponent n d - 52).toNat), low, high, ?_, ?_⟩
    · have scaled : (n : ℚ) / d / 2 ^ (binaryExponent n d - (52 : ℕ)) =
          n / (d * 2 ^ (binaryExponent n d - 52).toNat : ℕ) := by
        push_cast
        rw [div_div, ← zpow_natCast, Int.toNat_of_nonneg shift]
      rw [scaled]
      exact roundHalfEven_nearest _ (by positivity)
    · push_cast
      rw [div_one, ← zpow_natCast, Int.toNat_of_nonneg shift]
  · have shift : 0 ≤ -(binaryExponent n d - 52) := by omega
    refine ⟨by positivity, binaryExponent n d,
      roundHalfEven (n * 2 ^ (-(binaryExponent n d - 52)).toNat) d, low, high, ?_, ?_⟩
    · have scaled : (n : ℚ) / d / 2 ^ (binaryExponent n d - (52 : ℕ)) =
          (n * 2 ^ (-(binaryExponent n d - 52)).toNat : ℕ) / d := by
        push_cast
        rw [← zpow_natCast, Int.toNat_of_nonneg shift, zpow_neg]
        field_simp
      rw [scaled]
      exact roundHalfEven_nearest _ denominator
    · push_cast
      rw [← zpow_natCast, Int.toNat_of_nonneg shift, zpow_neg, div_inv_eq_mul]

theorem binary64_pos {n d : ℕ} (numerator : 0 < n) (denominator : 0 < d) :
    0 < (binary64 n d).1 := by
  obtain ⟨positive, rounded⟩ := binary64_rounded numerator denominator
  have positive : (0 : ℚ) < (binary64 n d).2 := by exact_mod_cast positive
  have := (div_pos_iff_of_pos_right positive).mp rounded.pos
  exact_mod_cast this

theorem binary64_mono {n d n' d' : ℕ} (numerator : 0 < n) (denominator : 0 < d)
    (denominator' : 0 < d') (le : (n : ℚ) / d ≤ n' / d') :
    ((binary64 n d).1 : ℚ) / (binary64 n d).2 ≤ (binary64 n' d').1 / (binary64 n' d').2 := by
  have numerator' : 0 < n' := by
    by_contra zero
    have positive : (0 : ℚ) < n / d := by positivity
    rw [Nat.eq_zero_of_not_pos zero, Nat.cast_zero, zero_div] at le
    exact absurd positive (not_lt.mpr le)
  exact (binary64_rounded numerator denominator).2.mono
    (binary64_rounded numerator' denominator').2 le

/-! ## Stamps -/

/-- `int(t.timestamp() * 1000)` of an instant `k` microseconds from the epoch, either way. -/
def millisOf (k : ℕ) : ℕ :=
  let seconds := binary64 k 1000000
  let millis := binary64 (seconds.1 * 1000) seconds.2
  millis.1 / millis.2

theorem timestampMs_eq (t : ℤ) : timestampMs t = t.sign * millisOf t.natAbs := rfl

theorem millisOf_zero : millisOf 0 = 0 := by
  decide +kernel

theorem truncated {n d : ℕ} (pos : 0 < d) :
    ((n / d : ℕ) : ℚ) ≤ (n : ℚ) / d ∧ (n : ℚ) / d < (n / d : ℕ) + 1 := by
  obtain ⟨low, high⟩ := fraction_bounds n pos
  rw [cast_div_add_mod n pos]
  exact ⟨by linarith, by linarith⟩

/-- The two roundings, and the truncation of what they give. -/
theorem millisOf_rounded {k : ℕ} (pos : 0 < k) :
    ∃ s m : ℚ, Rounded 52 (k / 1000000) s ∧ Rounded 52 (s * 1000) m ∧
      (millisOf k : ℚ) ≤ m ∧ m < millisOf k + 1 := by
  obtain ⟨posS, seconds⟩ := binary64_rounded pos (by decide : 0 < 1000000)
  have numerator := binary64_pos pos (by decide : 0 < 1000000)
  obtain ⟨posM, millis⟩ := binary64_rounded (n := (binary64 k 1000000).1 * 1000)
    (by positivity) posS
  have product : (((binary64 k 1000000).1 * 1000 : ℕ) : ℚ) / (binary64 k 1000000).2 =
      (binary64 k 1000000).1 / (binary64 k 1000000).2 * 1000 := by
    rw [Nat.cast_mul, div_mul_eq_mul_div]
    rfl
  rw [product] at millis
  exact ⟨_, _, seconds, millis, truncated posM⟩

theorem millisOf_mono {j k : ℕ} (le : j ≤ k) : millisOf j ≤ millisOf k := by
  rcases Nat.eq_zero_or_pos j with rfl | pos
  · rw [millisOf_zero]
    exact Nat.zero_le _
  obtain ⟨s, m, seconds, millis, floor, -⟩ := millisOf_rounded pos
  obtain ⟨s', m', seconds', millis', -, floor'⟩ := millisOf_rounded (pos.trans_le le)
  have scaled : (j : ℚ) / 1000000 ≤ k / 1000000 := by gcongr
  have product : s * 1000 ≤ s' * 1000 := by
    have := seconds.mono seconds' scaled
    gcongr
  have below : (millisOf j : ℚ) < millisOf k + 1 :=
    floor.trans_lt ((millis.mono millis' product).trans_lt floor')
  exact Nat.lt_succ_iff.mp (by exact_mod_cast below)

/-- The end of the year 9999, in microseconds. -/
def lastInstant : ℕ := 253402300800000000

/-- Both roundings together stay within a tenth of a millisecond. -/
theorem millisOf_near {k : ℕ} (pos : 0 < k) (range : k ≤ lastInstant) :
    ∃ m : ℚ, (k : ℚ) / 1000 - 1 / 10 < m ∧ m < k / 1000 + 1 / 10 ∧
      (millisOf k : ℚ) ≤ m ∧ m < millisOf k + 1 := by
  obtain ⟨s, m, seconds, millis, floor, floor'⟩ := millisOf_rounded pos
  have range : (k : ℚ) ≤ 253402300800000000 := by exact_mod_cast range
  have nonneg : (0 : ℚ) ≤ k := by positivity
  refine ⟨m, ?_, ?_, floor, floor'⟩
  · linarith [seconds.ge, millis.ge, seconds.le]
  · linarith [seconds.le, millis.le]

theorem millisOf_lt {j k : ℕ} (apart : j + 2000 ≤ k) (range : k ≤ lastInstant) :
    millisOf j < millisOf k := by
  have apart' : (j : ℚ) + 2000 ≤ k := by exact_mod_cast apart
  obtain ⟨m', near', -, -, floor'⟩ := millisOf_near (by omega : 0 < k) range
  rcases Nat.eq_zero_or_pos j with rfl | pos
  · have positive : (0 : ℚ) < millisOf k := by
      push_cast at apart'
      linarith
    rw [millisOf_zero]
    exact_mod_cast positive
  · obtain ⟨m, -, near, floor, -⟩ := millisOf_near pos (by omega)
    have less : (millisOf j : ℚ) < millisOf k := by linarith
    exact_mod_cast less

theorem timestampMs_mono {t u : ℤ} (le : t ≤ u) : timestampMs t ≤ timestampMs u := by
  rw [timestampMs_eq, timestampMs_eq]
  rcases lt_trichotomy t 0 with neg | rfl | pos
  · rw [Int.sign_eq_neg_one_of_neg neg]
    rcases lt_trichotomy u 0 with neg' | rfl | pos'
    · rw [Int.sign_eq_neg_one_of_neg neg']
      have := millisOf_mono (by omega : u.natAbs ≤ t.natAbs)
      omega
    · rw [Int.sign_zero]
      omega
    · rw [Int.sign_eq_one_of_pos pos']
      omega
  · rw [Int.sign_zero, zero_mul]
    exact mul_nonneg (Int.sign_nonneg_iff.mpr le) (Int.natCast_nonneg _)
  · rw [Int.sign_eq_one_of_pos pos, Int.sign_eq_one_of_pos (pos.trans_le le)]
    have := millisOf_mono (by omega : t.natAbs ≤ u.natAbs)
    omega

theorem millisOf_pos {k : ℕ} (millis : 1000 ≤ k) : 0 < millisOf k := by
  have one : 1 ≤ millisOf 1000 := by decide +kernel
  exact one.trans (millisOf_mono millis)

theorem timestampMs_lt {t u : ℤ} (apart : t + 2000 ≤ u) (left : t.natAbs ≤ lastInstant)
    (right : u.natAbs ≤ lastInstant) : timestampMs t < timestampMs u := by
  rw [timestampMs_eq, timestampMs_eq]
  rcases le_or_gt 0 t with nonneg | neg
  · rw [Int.sign_eq_one_of_pos (by omega : 0 < u)]
    have less := millisOf_lt (by omega : t.natAbs + 2000 ≤ u.natAbs) right
    rcases nonneg.eq_or_lt with rfl | pos
    · rw [Int.sign_zero]
      omega
    · rw [Int.sign_eq_one_of_pos pos]
      omega
  · rw [Int.sign_eq_neg_one_of_neg neg]
    rcases le_or_gt u 0 with nonpos | pos
    · have less := millisOf_lt (by omega : u.natAbs + 2000 ≤ t.natAbs) left
      rcases nonpos.eq_or_lt with rfl | neg'
      · rw [Int.sign_zero]
        omega
      · rw [Int.sign_eq_neg_one_of_neg neg']
        omega
    · -- one of the two is a whole millisecond away from the epoch
      rw [Int.sign_eq_one_of_pos pos]
      rcases le_or_gt 1000 u.natAbs with far | near
      · have := millisOf_pos far
        omega
      · have := millisOf_pos (by omega : 1000 ≤ t.natAbs)
        omega

end Sluice.Kernel
