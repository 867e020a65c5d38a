import Mathlib
import Assay.Proofs.Range

/-!
# Finite doubles and whole ones

A finite double is a mantissa and an exponent that its bits spell out (`Binary.ofFloat?_some`), and
rounding leaves alone what already has that form (`Precision.round_exact`). So a whole double is the
double nearest to its integer, however large it is (`nearestInt_toInt?`): reading the integer back
gives an equal number (`nearestInt_beq`).

A double with bits below those of infinity is finite (`Binary.isFinite_ofSignedBits`), so the double
nearest to a fraction is finite unless the fraction comes up to the limit (`Binary.isFinite_nearest`).

That a double is the one with its bits, and which doubles equal themselves, are laws of the runtime's
doubles that the whole of Mathlib brings along and no module of it does.
-/
namespace Assay

namespace Precision

/-- Rounding a multiple of the denominator drops the denominator. -/
theorem roundHalfEven_mul (quotient : Nat) {denominator : Nat} (positive : 0 < denominator) :
    roundHalfEven (quotient * denominator) denominator = quotient := by
  have whole : quotient * denominator / denominator = quotient := Nat.mul_div_left _ positive
  have exact : quotient * denominator % denominator = 0 := Nat.mul_mod_left _ _
  simp only [roundHalfEven, whole, exact]
  rw [if_neg]
  omega

/-- Times a power of two, a number has as many binary digits more. -/
theorem log2_mul_two_pow {number : Nat} (positive : number ≠ 0) (power : Nat) :
    (number * 2 ^ power).log2 = number.log2 + power := by
  induction power with
  | zero => rw [pow_zero, mul_one, Nat.add_zero]
  | succ power ih =>
    have doubled : number * 2 ^ (power + 1) = 2 * (number * 2 ^ power) := by ring
    rw [doubled, Nat.log2_two_mul (Nat.mul_ne_zero positive (Nat.two_pow_pos power).ne'), ih]
    rfl

section Exact

variable {whole mantissa : Nat} {exponent : Int}

/-- A whole number that is a mantissa of all digits times a power of two has that power as its
exponent. -/
theorem exponentFor_exact (least : -1074 ≤ exponent) (full : 2 ^ 52 ≤ mantissa)
    (short : mantissa < 2 ^ 53)
    (scaled : whole * 2 ^ (-exponent).toNat = mantissa * 2 ^ exponent.toNat) :
    double.exponentFor whole 1 = exponent := by
  have digits : mantissa.log2 = 52 := (Nat.log2_eq_iff (by omega)).mpr ⟨full, short⟩
  have positive : whole ≠ 0 := by
    intro zero
    rw [zero, Nat.zero_mul] at scaled
    exact (Nat.mul_pos (by omega) (Nat.two_pow_pos exponent.toNat)).ne scaled
  have places : whole.log2 + (-exponent).toNat = 52 + exponent.toNat := by
    rw [← log2_mul_two_pow positive, scaled, log2_mul_two_pow (by omega), digits]
  have guess : (whole.log2 : Int) - Nat.log2 1 - (double.digits - 1) = exponent := by
    change (whole.log2 : Int) - 0 - (53 - 1) = exponent
    omega
  have fits : ¬ whole * 2 ^ (-exponent).toNat < 2 ^ 52 * (1 * 2 ^ exponent.toNat) := by
    rw [scaled, one_mul, Nat.not_lt]
    exact Nat.mul_le_mul_right _ full
  unfold exponentFor
  rw [guess]
  exact (congrArg (max (-1074)) (if_neg fits)).trans (max_eq_right least)

/-- A whole number that is a mantissa of all digits times a power of two is rounded to that. -/
theorem round_exact (least : -1074 ≤ exponent) (greatest : exponent ≤ 971)
    (full : 2 ^ 52 ≤ mantissa) (short : mantissa < 2 ^ 53)
    (scaled : whole * 2 ^ (-exponent).toNat = mantissa * 2 ^ exponent.toNat) :
    double.round whole 1 = some (mantissa, exponent) := by
  have nearest :
      roundHalfEven (whole * Nat.pow 2 (-exponent).toNat) (1 * Nat.pow 2 exponent.toNat) =
        mantissa := by
    change roundHalfEven (whole * 2 ^ (-exponent).toNat) (1 * 2 ^ exponent.toNat) = mantissa
    rw [scaled, one_mul]
    exact roundHalfEven_mul mantissa (Nat.two_pow_pos _)
  have below : ¬ mantissa = Nat.pow 2 double.digits := Nat.ne_of_lt short
  have bounded : ¬ double.greatest < exponent := Int.not_lt.mpr greatest
  simp only [round, exponentFor_exact least full short scaled, nearest]
  rw [if_neg below]
  exact if_neg bounded

end Exact

end Precision

namespace Binary

/-- The mantissa and exponent are those of a double: the mantissa has all its digits, or the exponent
is the least one. -/
structure Normal (binary : Binary) : Prop where
  /-- The mantissa has at most as many digits as the format allows. -/
  short : binary.mantissa < 2 ^ 53
  /-- The mantissa has all its digits above the least exponent. -/
  full : 2 ^ 52 ≤ binary.mantissa ∨ binary.exponent = -1074
  /-- The exponent is not below those of the format. -/
  least : -1074 ≤ binary.exponent
  /-- The exponent is not above those of the format. -/
  greatest : binary.exponent ≤ 971

/-- The bits below the sign that stand for a mantissa and an exponent. -/
def bits (binary : Binary) : Nat := (binary.exponent + 1074).toNat * 2 ^ 52 + binary.mantissa

/-- A double is the one with its bits. -/
theorem ofSignedBits_toBits {number : Float} {negative : Bool} {bits : Nat}
    (same : number.toBits.toNat = bits + if negative then 2 ^ 63 else 0) :
    ofSignedBits negative bits = number := by
  have power : Nat.pow 2 63 = 2 ^ 63 := rfl
  rw [ofSignedBits, power, ← same, UInt64.ofNat_toNat, Float.ofBits_toBits]

/-- The exact form of a finite double is one of the format, and its bits are those of the double. -/
theorem ofFloat?_some {number : Float} {binary : Binary} (found : ofFloat? number = some binary) :
    binary.Normal ∧ ofSignedBits binary.negative binary.bits = number := by
  have word : number.toBits.toNat < 2 ^ 64 := number.toBits.toNat_lt
  have spelled : ∀ (negative : Bool) (bits : Nat),
      (number.toBits.toNat = bits + if negative then 2 ^ 63 else 0) →
        ofSignedBits negative bits = number := fun _ _ => ofSignedBits_toBits
  have fields : ofFloat? number =
    if number.toBits.toNat / 2 ^ 52 % 2 ^ 11 = 2047 then none
    else if number.toBits.toNat / 2 ^ 52 % 2 ^ 11 = 0 then
      some ⟨decide (2 ^ 63 ≤ number.toBits.toNat), number.toBits.toNat % 2 ^ 52, -1074⟩
    else
      some ⟨decide (2 ^ 63 ≤ number.toBits.toNat), number.toBits.toNat % 2 ^ 52 + 2 ^ 52,
        ((number.toBits.toNat / 2 ^ 52 % 2 ^ 11 : Nat) : Int) - 1075⟩ := rfl
  rw [fields] at found
  generalize number.toBits.toNat = bits at *
  split at found
  · cases found
  · split at found
    · -- The exponent field is zero: the mantissa lacks its leading digit.
      obtain rfl := Option.some.inj found
      refine ⟨⟨by dsimp only; omega, .inr rfl, Int.le_refl _, by dsimp only; omega⟩, spelled _ _ ?_⟩
      simp only [Binary.bits, decide_eq_true_eq]
      split <;> omega
    · obtain rfl := Option.some.inj found
      refine ⟨⟨by dsimp only; omega, .inl (by dsimp only; omega), by dsimp only; omega,
        by dsimp only; omega⟩, spelled _ _ ?_⟩
      simp only [Binary.bits, decide_eq_true_eq]
      split <;> omega

/-- The number that is none is not finite. -/
theorem ofFloat?_nan : ofFloat? Float.nan = none := by
  rfl

/-- A finite double equals itself. -/
theorem beq_self_of_finite {number : Float} {binary : Binary}
    (found : ofFloat? number = some binary) : (number == number) = true := by
  refine Float.beq_self_iff.mpr fun undefined => ?_
  rw [undefined, ofFloat?_nan] at found
  cases found

/-! ## Bits below those of infinity -/

/-- Bits whose exponent field is not full are kept by the double that has them. -/
theorem toBits_ofBits {bits : UInt64} (finite : bits.toNat / 2 ^ 52 % 2 ^ 11 ≠ 2047) :
    (Float.ofBits bits).toBits = bits := by
  have valid : Float.Model.Format.binary64.Valid bits.toBitVec := by
    refine ⟨fun full => absurd ?_ finite⟩
    have field := congrArg BitVec.toNat full
    simpa [Float.Model.UnpackedFloat.unpackExponent, BitVec.extractLsb, Nat.shiftRight_eq_div_pow]
      using field
  exact congrArg Float.toBits (Float.ofBits_toBits (Float.ofModel ⟨bits, valid⟩))

/-- A double with bits below those of infinity is finite. -/
theorem isFinite_ofSignedBits {negative : Bool} {bits : Nat} (below : bits < infinityBits) :
    isFiniteNumber (ofSignedBits negative bits) = true := by
  have infinity : infinityBits = 2047 * 2 ^ 52 := rfl
  rw [infinity] at below
  obtain ⟨word, spelled⟩ : ∃ word, word = UInt64.ofNat (bits + if negative then 2 ^ 63 else 0) :=
    ⟨_, rfl⟩
  have sized : word.toNat = bits + if negative then 2 ^ 63 else 0 := by
    rw [spelled, UInt64.toNat_ofNat', Nat.mod_eq_of_lt]
    split <;> omega
  have partly : word.toNat / 2 ^ 52 % 2 ^ 11 ≠ 2047 := by
    rw [sized]
    split <;> omega
  have number : ofSignedBits negative bits = Float.ofBits word := by
    rw [spelled]
    rfl
  have unfolded : ofFloat? (Float.ofBits word) =
      if word.toNat / 2 ^ 52 % 2 ^ 11 = 2047 then none
      else if word.toNat / 2 ^ 52 % 2 ^ 11 = 0 then
        some ⟨decide (2 ^ 63 ≤ word.toNat), word.toNat % 2 ^ 52, -1074⟩
      else
        some ⟨decide (2 ^ 63 ≤ word.toNat), word.toNat % 2 ^ 52 + 2 ^ 52,
          ((word.toNat / 2 ^ 52 % 2 ^ 11 : Nat) : Int) - 1075⟩ := by
    rw [ofFloat?, toBits_ofBits partly]
    rfl
  rw [isFiniteNumber, number, unfolded, if_neg partly]
  split <;> rfl

/-- The infinities are not finite. -/
theorem isFinite_infinity (negative : Bool) :
    isFiniteNumber (ofSignedBits negative infinityBits) = false := by
  cases negative <;> rfl

/-- What has the bits of no number is not finite. -/
theorem isFinite_undefined (negative : Bool) :
    isFiniteNumber (ofSignedBits negative (infinityBits + Nat.pow 2 51)) = false := by
  cases negative <;> rfl

/-- The double nearest to a fraction is finite when the fraction does not come up to the limit. -/
theorem isFinite_nearest {negative : Bool} {numerator denominator : Nat} (proper : denominator ≠ 0) :
    isFiniteNumber (nearest negative numerator denominator) = true ↔
      numerator < Precision.limit * denominator := by
  rw [nearest, nearestBits]
  by_cases zero : numerator = 0
  · have small : numerator < Precision.limit * denominator :=
      zero ▸ Nat.mul_pos Precision.limit_pos (Nat.pos_of_ne_zero proper)
    rw [if_pos zero]
    exact iff_of_true (isFinite_ofSignedBits (by decide)) small
  · rw [if_neg zero, ← Nat.not_le, ← Precision.round_eq_none_iff zero proper]
    cases rounded : Precision.double.round numerator denominator with
    | none => simp [isFinite_infinity]
    | some found =>
      obtain ⟨mantissa, exponent⟩ := found
      have below := Precision.bits_of_round zero proper rounded
      simpa using isFinite_ofSignedBits below

/-! ## Whole doubles -/

/-- The integer of a whole double has the sign of the double, and its size is the mantissa times the
power of two. -/
theorem toInt?_some {binary : Binary} {whole : Int} (found : binary.toInt? = some whole) :
    whole.natAbs * 2 ^ (-binary.exponent).toNat = binary.mantissa * 2 ^ binary.exponent.toNat ∧
      whole = if binary.negative then -(whole.natAbs : Int) else whole.natAbs := by
  have unfolded : binary.toInt? =
      if binary.mantissa * 2 ^ binary.exponent.toNat % 2 ^ (-binary.exponent).toNat = 0 then
        some (if binary.negative then
          -((binary.mantissa * 2 ^ binary.exponent.toNat / 2 ^ (-binary.exponent).toNat : Nat) : Int)
          else (binary.mantissa * 2 ^ binary.exponent.toNat / 2 ^ (-binary.exponent).toNat : Nat))
      else none := rfl
  rw [unfolded] at found
  split at found
  case isFalse => cases found
  case isTrue exact =>
    obtain rfl := Option.some.inj found
    have size := Nat.div_mul_cancel (Nat.dvd_of_mod_eq_zero exact)
    cases binary.negative with
    | false => exact ⟨size, rfl⟩
    | true =>
      simp only [if_true, Int.natAbs_neg, Int.natAbs_natCast, and_true]
      exact size

variable {number : Float} {binary : Binary} {whole : Int}

/-- A double whose integer is not zero has a mantissa of all digits. -/
theorem Normal.full_of_whole (normal : binary.Normal) (nonzero : whole ≠ 0)
    (scaled : whole.natAbs * 2 ^ (-binary.exponent).toNat =
      binary.mantissa * 2 ^ binary.exponent.toNat) : 2 ^ 52 ≤ binary.mantissa := by
  rcases normal.full with full | lowest
  · exact full
  · -- At the least exponent a whole number would be a mantissa of more digits than there are.
    have places : 53 ≤ (-binary.exponent).toNat := by omega
    have unscaled : binary.exponent.toNat = 0 := by omega
    rw [unscaled, pow_zero, mul_one] at scaled
    refine absurd normal.short (Nat.not_lt.mpr ?_)
    calc 2 ^ 53 ≤ 2 ^ (-binary.exponent).toNat := Nat.pow_le_pow_right (by omega) places
      _ ≤ whole.natAbs * 2 ^ (-binary.exponent).toNat :=
        Nat.le_mul_of_pos_left _ (Int.natAbs_pos.mpr nonzero)
      _ = binary.mantissa := scaled

/-- A double that is a whole number other than zero is the double nearest to it. -/
theorem nearestInt_toInt? (finite : ofFloat? number = some binary)
    (found : binary.toInt? = some whole) (nonzero : whole ≠ 0) : nearestInt whole = number := by
  obtain ⟨normal, spelled⟩ := ofFloat?_some finite
  obtain ⟨scaled, signed⟩ := toInt?_some found
  have rounded : Precision.double.round whole.natAbs 1 = some (binary.mantissa, binary.exponent) :=
    Precision.round_exact normal.least normal.greatest (normal.full_of_whole nonzero scaled)
      normal.short scaled
  have sign : decide (whole < 0) = binary.negative := by
    cases side : binary.negative <;> rw [side] at signed <;>
      simp only [Bool.false_eq_true, if_true, if_false] at signed <;> simp <;> omega
  rw [nearestInt, nearest, nearestBits, if_neg (Int.natAbs_ne_zero.mpr nonzero), rounded, sign]
  exact spelled

/-- A double that is zero is one of the two zeros. -/
theorem zero_of_toInt? (finite : ofFloat? number = some binary) (found : binary.toInt? = some 0) :
    number = ofSignedBits binary.negative 0 := by
  obtain ⟨normal, spelled⟩ := ofFloat?_some finite
  obtain ⟨scaled, -⟩ := toInt?_some found
  have nothing : binary.mantissa = 0 := by
    rw [Int.natAbs_zero, Nat.zero_mul] at scaled
    exact (Nat.mul_eq_zero.mp scaled.symm).resolve_right (Nat.two_pow_pos _).ne'
  have lowest : binary.exponent = -1074 := normal.full.resolve_left (by rw [nothing]; decide)
  rw [← spelled, bits, nothing, lowest]
  rfl

/-- The double nearest to the integer of a double equals that double. -/
theorem nearestInt_beq (finite : ofFloat? number = some binary)
    (found : binary.toInt? = some whole) : (nearestInt whole == number) = true := by
  by_cases zero : whole = 0
  · subst zero
    rw [zero_of_toInt? finite found]
    cases binary.negative with
    | false => decide
    | true => decide
  · rw [nearestInt_toInt? finite found zero]
    exact beq_self_of_finite finite

end Binary

end Assay
