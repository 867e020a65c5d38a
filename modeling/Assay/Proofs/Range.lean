import Mathlib.Tactic.Linarith
import Mathlib.Tactic.Ring
import Assay.Number.Binary

/-!
# The range of doubles

Rounding a fraction first fixes an exponent. At that exponent the fraction has a mantissa of no more
digits than the format allows, and of all of them unless the exponent is the least one
(`Precision.exponentFor_spec`). Rounding the mantissa can add a digit only where it goes up to the next
power of two. So a fraction has a nearest double unless it comes up to half a step above the largest one
(`Precision.round_eq_none_iff`), and the bits of the nearest double are below those of infinity
(`Precision.bits_of_round`).
-/
namespace Assay

namespace Precision

/-! ## The exponent of a fraction -/

/-- The fraction is less than a bound times two to the exponent. -/
def Below (numerator denominator bound : Nat) (exponent : Int) : Prop :=
  numerator * 2 ^ (-exponent).toNat < bound * (denominator * 2 ^ exponent.toNat)

section Below

variable {numerator denominator bound : Nat} {exponent : Int}

/-- Twice the bound is as much as one exponent more. -/
theorem below_succ :
    Below numerator denominator bound (exponent + 1) ↔
      Below numerator denominator (2 * bound) exponent := by
  rcases lt_or_ge exponent 0 with negative | natural
  · have power : (-exponent).toNat = (-(exponent + 1)).toNat + 1 := by omega
    have zero : exponent.toNat = 0 := by omega
    have next : (exponent + 1).toNat = 0 := by omega
    rw [Below, Below, power, zero, next, pow_succ, pow_zero, mul_one, ← mul_assoc,
      mul_comm _ 2, mul_assoc 2 bound]
    exact (Nat.mul_lt_mul_left Nat.two_pos).symm
  · have power : (exponent + 1).toNat = exponent.toNat + 1 := by omega
    have zero : (-exponent).toNat = 0 := by omega
    have next : (-(exponent + 1)).toNat = 0 := by omega
    rw [Below, Below, power, zero, next, pow_succ, ← mul_assoc, ← mul_assoc, ← mul_assoc,
      mul_comm _ 2, ← mul_assoc, ← mul_assoc]

/-- What is below at an exponent is so at every larger one. -/
theorem Below.mono (below : Below numerator denominator bound exponent) {larger : Int}
    (ordered : exponent ≤ larger) : Below numerator denominator bound larger := by
  obtain ⟨steps, rfl⟩ := Int.le.dest ordered
  clear ordered
  induction steps with
  | zero => simpa using below
  | succ steps ih =>
    rw [Nat.cast_succ, ← add_assoc, below_succ]
    exact lt_of_lt_of_le ih (Nat.mul_le_mul_right _ (by omega))

/-- At natural exponents a fraction is compared with a whole number. -/
theorem below_natCast (power : Nat) :
    Below numerator denominator bound power ↔ numerator < bound * (denominator * 2 ^ power) := by
  have zero : (-(power : Int)).toNat = 0 := by omega
  rw [Below, zero, pow_zero, mul_one, Int.toNat_natCast]

end Below

variable {numerator denominator : Nat}

/-- The difference of the binary lengths gives the exponent of a fraction, or one more. -/
theorem below_of_log2 (positive : numerator ≠ 0) (proper : denominator ≠ 0) {digits : Nat}
    {guess : Int} (guessed : guess = (numerator.log2 : Int) - denominator.log2 - digits) :
    Below numerator denominator (2 ^ (digits + 1)) guess ∧
      ∀ fewer, fewer + 1 = digits → ¬ Below numerator denominator (2 ^ fewer) guess := by
  have short : numerator < 2 ^ (numerator.log2 + 1) := Nat.lt_log2_self
  have long : 2 ^ numerator.log2 ≤ numerator := Nat.log2_self_le positive
  have narrow : denominator < 2 ^ (denominator.log2 + 1) := Nat.lt_log2_self
  have wide : 2 ^ denominator.log2 ≤ denominator := Nat.log2_self_le proper
  constructor
  · have places : numerator.log2 + 1 + (-guess).toNat =
        digits + 1 + (denominator.log2 + guess.toNat) := by omega
    calc numerator * 2 ^ (-guess).toNat
      _ < 2 ^ (numerator.log2 + 1) * 2 ^ (-guess).toNat :=
        Nat.mul_lt_mul_of_pos_right short (Nat.two_pow_pos _)
      _ = 2 ^ (digits + 1) * (2 ^ denominator.log2 * 2 ^ guess.toNat) := by
        rw [← pow_add, ← pow_add, ← pow_add, places]
      _ ≤ 2 ^ (digits + 1) * (denominator * 2 ^ guess.toNat) :=
        Nat.mul_le_mul_left _ (Nat.mul_le_mul_right _ wide)
  · intro fewer less
    have places : fewer + (denominator.log2 + 1 + guess.toNat) =
        numerator.log2 + (-guess).toNat := by omega
    refine Nat.not_lt.mpr ?_
    calc 2 ^ fewer * (denominator * 2 ^ guess.toNat)
      _ ≤ 2 ^ fewer * (2 ^ (denominator.log2 + 1) * 2 ^ guess.toNat) :=
        Nat.mul_le_mul_left _ (Nat.mul_le_mul_right _ narrow.le)
      _ = 2 ^ numerator.log2 * 2 ^ (-guess).toNat := by
        rw [← pow_add, ← pow_add, ← pow_add, places]
      _ ≤ numerator * 2 ^ (-guess).toNat := Nat.mul_le_mul_right _ long

/-- At the exponent of a fraction its mantissa has 53 binary digits at most, and no fewer unless the
exponent is the least one. -/
theorem exponentFor_spec (positive : numerator ≠ 0) (proper : denominator ≠ 0) :
    -1074 ≤ double.exponentFor numerator denominator ∧
      Below numerator denominator (2 ^ 53) (double.exponentFor numerator denominator) ∧
      (double.exponentFor numerator denominator = -1074 ∨
        ¬ Below numerator denominator (2 ^ 52) (double.exponentFor numerator denominator)) := by
  obtain ⟨guess, guessed⟩ :
      ∃ guess : Int, guess = (numerator.log2 : Int) - denominator.log2 - (52 : Nat) := ⟨_, rfl⟩
  obtain ⟨upper, lower⟩ := below_of_log2 positive proper guessed
  have least := lower 51 rfl
  -- The exponent before it is kept from falling below the least one.
  obtain ⟨exponent, chosen⟩ : ∃ exponent : Int, exponent =
      if numerator * Nat.pow 2 (-guess).toNat <
        Nat.pow 2 52 * (denominator * Nat.pow 2 guess.toNat) then guess - 1 else guess := ⟨_, rfl⟩
  have found : double.exponentFor numerator denominator = max (-1074) exponent := by
    rw [chosen, guessed]
    rfl
  have within : Below numerator denominator (2 ^ 53) exponent ∧
      ¬ Below numerator denominator (2 ^ 52) exponent := by
    by_cases large : Below numerator denominator (2 ^ 52) guess
    · have previous : exponent = guess - 1 := chosen.trans (if_pos large)
      have next : guess = exponent + 1 := by omega
      rw [next, below_succ] at large least
      exact ⟨large, least⟩
    · have same : exponent = guess := chosen.trans (if_neg large)
      rw [same]
      exact ⟨upper, large⟩
  rw [found]
  refine ⟨le_max_left _ _, within.1.mono (le_max_right _ _), ?_⟩
  rcases le_total exponent (-1074) with low | high
  · exact .inl (max_eq_left low)
  · rw [max_eq_right high]
    exact .inr within.2

/-! ## Rounding a mantissa -/

/-- What is less than a number of denominators is rounded to that number at most. -/
theorem roundHalfEven_le {bound : Nat} (below : numerator < bound * denominator) :
    roundHalfEven numerator denominator ≤ bound := by
  have quotient : numerator / denominator < bound := Nat.div_lt_of_lt_mul (by rwa [mul_comm])
  simp only [roundHalfEven]
  split <;> omega

/-- What is less than an even number of denominators is rounded to that number when it lacks half a
denominator at most. -/
theorem roundHalfEven_eq_iff {bound : Nat} (even : bound % 2 = 0)
    (below : numerator < bound * denominator) :
    roundHalfEven numerator denominator = bound ↔
      (2 * bound - 1) * denominator ≤ 2 * numerator := by
  have split : denominator * (numerator / denominator) + numerator % denominator = numerator :=
    Nat.div_add_mod _ _
  have shorter : numerator / denominator < bound := Nat.div_lt_of_lt_mul (by rwa [mul_comm])
  have less : numerator % denominator < denominator :=
    Nat.mod_lt _ (Nat.pos_of_ne_zero fun zero => by simp [zero] at below)
  have rounded : roundHalfEven numerator denominator =
      if denominator < 2 * (numerator % denominator) ∨
        (denominator = 2 * (numerator % denominator) ∧ numerator / denominator % 2 = 1) then
        numerator / denominator + 1
      else numerator / denominator := rfl
  rw [rounded]
  generalize numerator / denominator = quotient at *
  generalize numerator % denominator = rest at *
  subst split
  rcases Nat.lt_or_ge (quotient + 1) bound with short | last
  · -- Even with one more the quotient stays short, and so does half a denominator more.
    have lacking : (2 * quotient + 3) * denominator ≤ (2 * bound - 1) * denominator :=
      Nat.mul_le_mul_right _ (by omega)
    have expanded : (2 * quotient + 3) * denominator =
        2 * (denominator * quotient) + 3 * denominator := by ring
    split_ifs <;> omega
  · obtain rfl : bound = quotient + 1 := by omega
    have expanded : (2 * (quotient + 1) - 1) * denominator =
        2 * (denominator * quotient) + denominator := by
      have odd : 2 * (quotient + 1) - 1 = 2 * quotient + 1 := by omega
      rw [odd]
      ring
    split_ifs <;> omega

/-- Half a step above the largest double: what comes up to it has no nearest double. -/
def limit : Nat := (2 ^ 54 - 1) * 2 ^ 970

/-- The limit is positive. -/
theorem limit_pos : 0 < limit := by
  have power : ∀ exponent, 0 < (2 ^ 54 - 1) * 2 ^ exponent :=
    fun exponent => Nat.mul_pos (by decide) (Nat.two_pow_pos exponent)
  rw [limit]
  exact power 970

/-- Decimals are cut off beyond the limit. -/
theorem limit_le {cut : Nat} (named : cut = 400) : limit ≤ 10 ^ cut := by
  have power : ∀ exponent places, 54 + exponent ≤ 13 * places →
      (2 ^ 54 - 1) * 2 ^ exponent ≤ 10 ^ (4 * places) := by
    intro exponent places enough
    calc (2 ^ 54 - 1) * 2 ^ exponent
      _ ≤ 2 ^ 54 * 2 ^ exponent := Nat.mul_le_mul_right _ (by decide)
      _ = 2 ^ (54 + exponent) := (pow_add _ _ _).symm
      _ ≤ 2 ^ (13 * places) := Nat.pow_le_pow_right (by decide) enough
      _ = (2 ^ 13) ^ places := pow_mul _ _ _
      _ ≤ (10 ^ 4) ^ places := Nat.pow_le_pow_left (by decide) places
      _ = 10 ^ (4 * places) := (pow_mul _ _ _).symm
  have count : cut = 4 * 100 := named
  rw [limit, count]
  exact power 970 100 (by decide)

/-- A fraction is rounded to a mantissa and an exponent of the format, unless this exponent is beyond
the greatest one; and that it is when the fraction comes up to the limit. -/
theorem round_spec (positive : numerator ≠ 0) (proper : denominator ≠ 0) :
    ∃ mantissa exponent, mantissa < 2 ^ 53 ∧ -1074 ≤ exponent ∧
      double.round numerator denominator =
        (if 971 < exponent then none else some (mantissa, exponent)) ∧
      (971 < exponent ↔ limit * denominator ≤ numerator) := by
  obtain ⟨least, upper, lower⟩ := exponentFor_spec positive proper
  have unfolded : double.round numerator denominator =
      (let exponent := double.exponentFor numerator denominator
      let mantissa := roundHalfEven (numerator * 2 ^ (-exponent).toNat)
        (denominator * 2 ^ exponent.toNat)
      let rounded := if mantissa = 2 ^ 53 then (2 ^ 52, exponent + 1) else (mantissa, exponent)
      if 971 < rounded.2 then none else some rounded) := rfl
  rw [unfolded]
  generalize double.exponentFor numerator denominator = exponent at *
  -- Half a step at the greatest exponent is what exponents are compared with.
  obtain ⟨power, named⟩ : ∃ power : Nat, power = 970 := ⟨_, rfl⟩
  have limited : limit * denominator = (2 ^ 54 - 1) * (denominator * 2 ^ power) := by
    rw [limit, named, mul_assoc, mul_comm denominator]
  rw [limited]
  have few : exponent ≤ power → numerator < 2 ^ 53 * (denominator * 2 ^ power) := fun small =>
    (below_natCast power).mp (upper.mono small)
  have many : power + 2 ≤ exponent → 2 ^ 52 * (4 * (denominator * 2 ^ power)) ≤ numerator := by
    intro large
    have below := (below_natCast (power + 2)).not.mp fun below =>
      lower.resolve_left (by omega) (below.mono large)
    rw [pow_add] at below
    linarith
  have once : exponent = power + 1 →
      denominator * 2 ^ exponent.toNat = 2 * (denominator * 2 ^ power) := by
    intro next
    have steps : exponent.toNat = power + 1 := by omega
    rw [steps, pow_succ]
    ring
  have carries := roundHalfEven_eq_iff (show 2 ^ 53 % 2 = 0 by decide) upper
  have natural : 0 ≤ exponent → numerator * 2 ^ (-exponent).toNat = numerator := by
    intro natural
    have zero : (-exponent).toNat = 0 := by omega
    rw [zero, pow_zero, mul_one]
  have short := roundHalfEven_le upper
  clear limited upper lower unfolded
  dsimp only
  generalize denominator * 2 ^ power = half at *
  generalize denominator * 2 ^ exponent.toNat = scaled at *
  generalize numerator * 2 ^ (-exponent).toNat = shifted at *
  generalize roundHalfEven shifted scaled = mantissa at *
  by_cases full : mantissa = 2 ^ 53
  · refine ⟨2 ^ 52, exponent + 1, by decide, by omega, by simp only [if_pos full], ?_⟩
    have near := carries.mp full
    omega
  · refine ⟨mantissa, exponent, by omega, least, by simp only [if_neg full], ?_⟩
    omega

/-- A fraction has no nearest double when it comes up to the limit. -/
theorem round_eq_none_iff (positive : numerator ≠ 0) (proper : denominator ≠ 0) :
    double.round numerator denominator = none ↔ limit * denominator ≤ numerator := by
  obtain ⟨_, _, _, _, rounded, beyond⟩ := round_spec positive proper
  rw [rounded, ← beyond]
  split_ifs with large <;> simp [large]

/-- The bits of a mantissa and an exponent that a fraction is rounded to are below those of
infinity. -/
theorem bits_of_round (positive : numerator ≠ 0) (proper : denominator ≠ 0) {mantissa : Nat}
    {exponent : Int} (rounded : double.round numerator denominator = some (mantissa, exponent)) :
    (exponent + 1074).toNat * 2 ^ 52 + mantissa < Binary.infinityBits := by
  obtain ⟨_, _, short, least, found, _⟩ := round_spec positive proper
  rw [found] at rounded
  split_ifs at rounded with large
  cases rounded
  have infinity : Binary.infinityBits = 2047 * 2 ^ 52 := rfl
  omega

end Precision

end Assay
