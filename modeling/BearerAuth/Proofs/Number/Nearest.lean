import BearerAuth.Number.Binary64
import Mathlib.Algebra.Order.Field.Power
import Mathlib.Algebra.Order.Field.Rat
import Mathlib.Tactic.FieldSimp
import Mathlib.Tactic.GCongr
import Mathlib.Tactic.Linarith
import Mathlib.Tactic.Positivity
import Mathlib.Tactic.Ring

/-!
# Binary fractions are near what they are rounded from

The values of binary fractions as rational numbers, and how far a rounded quotient is from the
quotient itself.

* `abs_nearestEven_sub_le`, `nearestEven_eq_of_near` : the nearest natural number to a quotient;
* `Binary64.value` is the value of a binary fraction;
* `Binary64.exponentOf_bounds` : the mantissa of a quotient has 53 bits, unless the exponent is the
  least of the format;
* `Binary64.exists_nearest` : a quotient is rounded by half a unit in the last place at most;
* `Binary64.exists_whole` : natural numbers of 53 bits are not rounded.

The proof: by the lengths of numerator and denominator the quotient lies between two powers of two
that are four apart, and one comparison tells which half it is in.
-/

namespace BearerAuth.Number

/-! ### The nearest natural number -/

theorem abs_nearestEven_sub_le (num : Nat) {den : Nat} (positive : 0 < den) :
    |(nearestEven num den : ℚ) - num / den| ≤ 1 / 2 := by
  have positive' : (0 : ℚ) < den := by exact_mod_cast positive
  have above : 2 * ((nearestEven num den : ℚ) * den) ≤ 2 * num + den := by
    exact_mod_cast nearestEven_le num den positive
  have below : 2 * (num : ℚ) ≤ 2 * ((nearestEven num den : ℚ) * den) + den := by
    exact_mod_cast le_nearestEven num den positive
  have quotient : (num : ℚ) / den * den = num := div_mul_cancel₀ _ positive'.ne'
  rw [abs_le]
  constructor
  · refine le_of_mul_le_mul_right ?_ positive'
    linarith
  · refine le_of_mul_le_mul_right ?_ positive'
    linarith

/-- A number that is less than a half from a quotient is its rounding. -/
theorem nearestEven_eq_of_near {num den n : Nat} (positive : 0 < den)
    (near : |(num : ℚ) / den - n| < 1 / 2) : nearestEven num den = n := by
  have rounded := abs_nearestEven_sub_le num positive
  have close : |(nearestEven num den : ℚ) - n| < 1 :=
    calc |(nearestEven num den : ℚ) - n|
      _ ≤ |(nearestEven num den : ℚ) - num / den| + |(num : ℚ) / den - n| := abs_sub_le _ _ _
      _ < 1 := by linarith
  obtain ⟨above, below⟩ := abs_lt.1 close
  have above' : (n : ℚ) < nearestEven num den + 1 := by linarith
  have below' : (nearestEven num den : ℚ) < n + 1 := by linarith
  norm_cast at above' below'
  omega

namespace Binary64

/-! ### Values -/

/-- The value of a binary fraction. -/
def value (x : Binary64) : ℚ := x.mantissa * 2 ^ x.exponent

@[simp] theorem value_zero : zero.value = 0 := by simp [value, zero]

theorem isZero_iff {x : Binary64} : x.isZero = true ↔ x.value = 0 := by
  simp [isZero, value, zpow_ne_zero]

variable {e : Int}

theorem zpow_of_neg (h : e < 0) : (2 : ℚ) ^ e = ((Nat.pow 2 e.natAbs : Nat) : ℚ)⁻¹ := by
  obtain ⟨k, rfl⟩ := Int.exists_eq_neg_ofNat h.le
  simp

theorem zpow_of_not_neg (h : ¬ e < 0) : (2 : ℚ) ^ e = (Nat.pow 2 e.natAbs : Nat) := by
  obtain ⟨k, rfl⟩ := Int.eq_ofNat_of_zero_le (Int.not_lt.1 h)
  simp

theorem toQuotient_value (x : Binary64) :
    0 < x.toQuotient.2 ∧ (x.toQuotient.1 : ℚ) / x.toQuotient.2 = x.value := by
  rw [toQuotient, value]
  split
  · rename_i small
    rw [zpow_of_neg small, div_eq_mul_inv]
    exact ⟨Nat.two_pow_pos _, rfl⟩
  · rename_i large
    rw [zpow_of_not_neg large]
    simp

theorem scaled_value (num : Nat) {den : Nat} (positive : 0 < den) (e : Int) :
    0 < (scaled num den e).2 ∧
      ((scaled num den e).1 : ℚ) / (scaled num den e).2 = num / den / 2 ^ e := by
  rw [scaled]
  split
  · rename_i small
    refine ⟨positive, ?_⟩
    rw [zpow_of_neg small, div_inv_eq_mul]
    push_cast
    ring
  · rename_i large
    refine ⟨Nat.mul_pos positive (Nat.two_pow_pos _), ?_⟩
    rw [zpow_of_not_neg large, div_div]
    push_cast
    rfl

/-! ### The exponent of a quotient -/

theorem quotient_bounds {num den : Nat} (positive : 0 < num) (positive' : 0 < den) :
    (2 : ℚ) ^ ((num.log2 : Int) - den.log2 - 1) ≤ num / den ∧
      (num : ℚ) / den < 2 ^ ((num.log2 : Int) - den.log2 + 1) := by
  have low : (2 : ℚ) ^ num.log2 ≤ num := by exact_mod_cast Nat.log2_self_le positive.ne'
  have high : (num : ℚ) < 2 ^ (num.log2 + 1) := by exact_mod_cast Nat.lt_log2_self
  have low' : (2 : ℚ) ^ den.log2 ≤ den := by exact_mod_cast Nat.log2_self_le positive'.ne'
  have high' : (den : ℚ) < 2 ^ (den.log2 + 1) := by exact_mod_cast Nat.lt_log2_self
  have pos : (0 : ℚ) < num := by exact_mod_cast positive
  have pos' : (0 : ℚ) < den := by exact_mod_cast positive'
  have power (a b : Nat) : (2 : ℚ) ^ a / 2 ^ b = 2 ^ ((a : Int) - b) := by
    rw [zpow_sub₀ two_ne_zero, zpow_natCast, zpow_natCast]
  constructor
  · calc (2 : ℚ) ^ ((num.log2 : Int) - den.log2 - 1)
      _ = 2 ^ num.log2 / 2 ^ (den.log2 + 1) := by rw [power]; congr 1; push_cast; ring
      _ ≤ num / den := by gcongr
  · calc (num : ℚ) / den
      _ < 2 ^ (num.log2 + 1) / 2 ^ den.log2 := by gcongr
      _ = 2 ^ ((num.log2 : Int) - den.log2 + 1) := by rw [power]; congr 1; push_cast; ring

/-- The comparison by which an exponent is settled. -/
theorem scaled_le_iff (num : Nat) {den : Nat} (positive : 0 < den) (e : Int) :
    (scaled num den e).2 * Nat.pow 2 53 ≤ (scaled num den e).1 ↔
      (2 : ℚ) ^ (e + 53) ≤ num / den := by
  obtain ⟨pos, value⟩ := scaled_value num positive e
  have pos : (0 : ℚ) < (scaled num den e).2 := by exact_mod_cast pos
  have unit : (0 : ℚ) < 2 ^ e := by positivity
  calc (scaled num den e).2 * Nat.pow 2 53 ≤ (scaled num den e).1
    _ ↔ ((2 : ℚ) ^ 53) * (scaled num den e).2 ≤ (scaled num den e).1 := by
      rw [mul_comm ((2 : ℚ) ^ 53)]
      exact_mod_cast Iff.rfl
    _ ↔ (2 : ℚ) ^ 53 ≤ num / den / 2 ^ e := by rw [← le_div_iff₀ pos, value]
    _ ↔ (2 : ℚ) ^ (e + 53) ≤ num / den := by
      rw [le_div_iff₀ unit, zpow_add₀ two_ne_zero, mul_comm]
      rfl

/-- **The mantissa of a quotient has 53 bits**, unless the exponent is the least of the format. -/
theorem exponentOf_bounds {num den : Nat} (positive : 0 < num) (positive' : 0 < den) :
    -1074 ≤ exponentOf num den ∧ (num : ℚ) / den < 2 ^ (exponentOf num den + 53) ∧
      (exponentOf num den = -1074 ∨ (2 : ℚ) ^ (exponentOf num den + 52) ≤ num / den) := by
  obtain ⟨low, high⟩ := quotient_bounds positive positive'
  unfold exponentOf
  dsimp only
  generalize length : (num.log2 : Int) - den.log2 - 53 = d
  have least : -1074 ≤ max d (-1074) := le_max_right _ _
  split
  · rename_i large
    rw [scaled_le_iff num positive'] at large
    refine ⟨by omega, high.trans_le ?_, .inr ?_⟩
    · have long : d ≤ max d (-1074) := le_max_left _ _
      exact zpow_le_zpow_right₀ one_le_two (by omega)
    · rw [add_assoc]
      exact large
  · rename_i small
    rw [scaled_le_iff num positive'] at small
    refine ⟨least, not_le.1 small, ?_⟩
    rcases max_choice d (-1074) with same | same
    · refine .inr ?_
      rw [same, ← length]
      refine le_trans (le_of_eq ?_) low
      congr 1
      omega
    · exact .inl same

/-- The units of what is below a power of two are smaller by 53 bits, unless they are the least. -/
theorem exponentOf_lt {num den : Nat} {b : Int} (positive : 0 < num) (positive' : 0 < den)
    (range : (num : ℚ) / den < 2 ^ b) :
    exponentOf num den = -1074 ∨ exponentOf num den + 52 < b := by
  obtain ⟨-, -, least | low⟩ := exponentOf_bounds positive positive'
  · exact .inl least
  · exact .inr ((zpow_lt_zpow_iff_right₀ one_lt_two).1 (low.trans_lt range))

/-! ### Rounded quotients -/

/-- The binary fraction of a rounded mantissa; a mantissa that has run over is halved. -/
def pack (mantissa : Nat) (e : Int) : Binary64 :=
  if mantissa == Nat.pow 2 53 then ⟨Nat.pow 2 52, e + 1⟩ else ⟨mantissa, e⟩

theorem value_pack (mantissa : Nat) (e : Int) : (pack mantissa e).value = mantissa * 2 ^ e := by
  unfold pack value
  split
  · rename_i full
    rw [eq_of_beq full, zpow_add_one₀ two_ne_zero, mul_comm _ (2 : ℚ), ← mul_assoc]
    norm_num
  · rfl

theorem exponent_pack (mantissa : Nat) (e : Int) : (pack mantissa e).exponent ≤ e + 1 := by
  unfold pack
  split
  · exact le_refl _
  · exact Int.le_add_one (le_refl e)

theorem ofQuotient?_eq {num den n m : Nat} {e : Int} (positive : 0 < num)
    (exponent : exponentOf num den = e) (parts : scaled num den e = (n, m)) :
    ofQuotient? num den =
      if (pack (nearestEven n m) e).isZero then some zero
      else if 971 < (pack (nearestEven n m) e).exponent then none
      else some (pack (nearestEven n m) e) := by
  rw [ofQuotient?, if_neg (by simpa using positive.ne'), exponent]
  extract_lets e'
  rw [show scaled num den e' = (n, m) from parts]
  rfl

/-- A quotient that is not too large is rounded to a whole number of its units. -/
theorem exists_rounded {num den : Nat} {b : Int} (positive : 0 < num) (positive' : 0 < den)
    (range : (num : ℚ) / den < 2 ^ b) (large : b ≤ 1023) :
    ∃ x, ofQuotient? num den = some x ∧
      x.value = nearestEven (scaled num den (exponentOf num den)).1
        (scaled num den (exponentOf num den)).2 * 2 ^ exponentOf num den := by
  have small := exponentOf_lt positive positive' range
  generalize exponent : exponentOf num den = e at small
  generalize parts : scaled num den e = pair
  obtain ⟨n, m⟩ := pair
  rw [ofQuotient?_eq positive exponent parts]
  have value := value_pack (nearestEven n m) e
  have inside := exponent_pack (nearestEven n m) e
  generalize pack (nearestEven n m) e = x at value inside
  by_cases nothing : x.isZero = true
  · rw [if_pos nothing]
    exact ⟨zero, rfl, by rw [value_zero, ← value, isZero_iff.1 nothing]⟩
  · rw [if_neg nothing, if_neg (by omega)]
    exact ⟨x, rfl, value⟩

/-- **A quotient is rounded by half a unit in the last place at most.** -/
theorem exists_nearest (num : Nat) {den : Nat} {b : Int} (positive : 0 < den)
    (range : (num : ℚ) / den < 2 ^ b) (small : -1021 ≤ b) (large : b ≤ 1023) :
    ∃ x, ofQuotient? num den = some x ∧ |x.value - num / den| ≤ 2 ^ (b - 54) := by
  have unit : (0 : ℚ) < 2 ^ (b - 54) := by positivity
  rcases Nat.eq_zero_or_pos num with rfl | positive'
  · exact ⟨zero, rfl, by simpa using unit.le⟩
  obtain ⟨x, rounded, value⟩ := exists_rounded positive' positive range large
  refine ⟨x, rounded, ?_⟩
  have last : exponentOf num den - 1 ≤ b - 54 := by
    have units := exponentOf_lt positive' positive range
    omega
  generalize exponentOf num den = e at value last
  obtain ⟨pos, units⟩ := scaled_value num positive e
  have half := abs_nearestEven_sub_le (scaled num den e).1 pos
  have unit : (0 : ℚ) < 2 ^ e := by positivity
  calc |x.value - num / den|
    _ = |(nearestEven (scaled num den e).1 (scaled num den e).2 : ℚ) -
          (scaled num den e).1 / (scaled num den e).2| * 2 ^ e := by
      rw [value, units, ← abs_of_pos unit, ← abs_mul, abs_of_pos unit, sub_mul,
        div_mul_cancel₀ _ unit.ne']
    _ ≤ 1 / 2 * 2 ^ e := by gcongr
    _ = 2 ^ (e - 1) := by rw [zpow_sub_one₀ two_ne_zero]; ring
    _ ≤ 2 ^ (b - 54) := zpow_le_zpow_right₀ one_le_two last

/-- **Natural numbers of 53 bits are not rounded.** -/
theorem exists_whole {n : Nat} (small : n < 2 ^ 53) :
    ∃ x, ofNat? n = some x ∧ x.value = n := by
  rcases Nat.eq_zero_or_pos n with rfl | positive
  · exact ⟨zero, rfl, by simp⟩
  have range : (n : ℚ) / (1 : Nat) < 2 ^ (53 : Int) := by
    rw [Nat.cast_one, div_one]
    exact_mod_cast small
  obtain ⟨x, rounded, value⟩ := exists_rounded positive Nat.one_pos range (by omega)
  refine ⟨x, rounded, value.trans ?_⟩
  have fraction : exponentOf n 1 ≤ 0 := by
    have units := exponentOf_lt positive Nat.one_pos range
    omega
  generalize exponentOf n 1 = e at fraction
  obtain ⟨k, rfl⟩ := Int.exists_eq_neg_ofNat fraction
  obtain ⟨pos, units⟩ := scaled_value n Nat.one_pos (-(k : Int))
  -- the number is a whole number of units
  have whole : nearestEven (scaled n 1 (-(k : Int))).1 (scaled n 1 (-(k : Int))).2 = n * 2 ^ k := by
    refine nearestEven_eq_of_near pos ?_
    rw [units]
    simp
  rw [whole, zpow_neg, zpow_natCast]
  push_cast
  rw [mul_assoc, mul_inv_cancel₀ (by positivity), mul_one]

/-- A quotient of binary fractions is rounded like any other. -/
theorem exists_div (x : Binary64) {y : Binary64} {b : Int} (nonzero : y.value ≠ 0)
    (range : x.value / y.value < 2 ^ b) (small : -1021 ≤ b) (large : b ≤ 1023) :
    ∃ z, x.div? y = some z ∧ |z.value - x.value / y.value| ≤ 2 ^ (b - 54) := by
  obtain ⟨pos, value⟩ := x.toQuotient_value
  obtain ⟨-, value'⟩ := y.toQuotient_value
  rw [div?]
  generalize x.toQuotient = q at pos value
  generalize y.toQuotient = q' at value'
  obtain ⟨n, d⟩ := q
  obtain ⟨n', d'⟩ := q'
  dsimp only at pos value value' ⊢
  have pos' : 0 < n' := by
    refine Nat.pos_of_ne_zero fun none => nonzero ?_
    rw [← value', none, Nat.cast_zero, zero_div]
  have quotient : ((n * d' : Nat) : ℚ) / (d * n' : Nat) = x.value / y.value := by
    rw [← value, ← value', div_div_div_eq]
    push_cast
    rfl
  rw [← quotient] at range ⊢
  exact exists_nearest _ (Nat.mul_pos pos pos') range small large

/-- **A natural number is divided by a power of ten with one rounding.** -/
theorem exists_scaled {n k : Nat} {b : Int} (short : n < 2 ^ 53) (moves : 0 < k) (digits : k ≤ 15)
    (range : (n : ℚ) / 10 ^ k < 2 ^ b) (small : -1021 ≤ b) (large : b ≤ 1023) :
    ∃ x, ((ofNat? n).bind (·.scaleTen? (-k))) = some x ∧ |x.value - n / 10 ^ k| ≤ 2 ^ (b - 54) ∧
      (n = 0 → x.isZero = true) := by
  obtain ⟨m, made, value⟩ := exists_whole short
  obtain ⟨t, made', value'⟩ := exists_whole (n := 10 ^ k) <|
    calc 10 ^ k
      _ ≤ 10 ^ 15 := Nat.pow_le_pow_right (by decide) digits
      _ < 2 ^ 53 := by decide
  have backward : -(k : Int) < 0 := by omega
  rw [made, Option.bind_some, scaleTen?, if_pos backward, Int.natAbs_neg, Int.natAbs_natCast,
    divPowTen?]
  by_cases nothing : m.isZero = true
  · have none : (n : ℚ) = 0 := value.symm.trans (isZero_iff.1 nothing)
    rw [if_pos nothing]
    refine ⟨zero, rfl, ?_, fun _ => rfl⟩
    rw [value_zero, none, zero_div, sub_zero, abs_zero]
    positivity
  · have power : t.value = 10 ^ k := by exact_mod_cast value'
    rw [if_neg nothing, if_pos (by omega), powTen?]
    change ∃ x, (ofNat? (10 ^ k)).bind m.div? = some x ∧ _
    rw [made', Option.bind_some]
    rw [← value, ← power] at range ⊢
    obtain ⟨x, divided, near⟩ := exists_div m (by rw [power]; positivity) range small large
    refine ⟨x, divided, near, fun none => absurd (isZero_iff.2 ?_) nothing⟩
    rw [value, none, Nat.cast_zero]

end Binary64

end BearerAuth.Number
