import Assay.Kind
import Assay.Proofs.Doubles
import Assay.Proofs.Idempotence
import Assay.Proofs.Scalars

/-!
# Texts that write no finite number

A text is coerced to the number that it writes, and texts write more than the type check of numbers
lets pass: the words for what is infinite or undefined, and decimals beyond the largest double
(`Numeral.boundless_iff`). A value that is one of these is the only one that coercion changes into
something that its own kind refuses; whatever else it changes comes out as its kind demands
(`Schema.validateAt_lands`).
-/
namespace Assay

namespace Decimal

/-- The decimal comes up to the limit of the doubles. -/
def Exceeds (decimal : Decimal) : Prop :=
  Precision.limit * 10 ^ (-decimal.exponent).toNat ≤ decimal.digits * 10 ^ decimal.exponent.toNat

/-- A positive number is less than ten to the number of its digits, and one digit fewer is too few. -/
theorem digitCount_spec {number : Nat} (positive : number ≠ 0) :
    ∃ fewer, digitCount number = fewer + 1 ∧ 10 ^ fewer ≤ number ∧ number < 10 ^ (fewer + 1) := by
  obtain ⟨fewer, counted⟩ : ∃ fewer, digitCount number = fewer + 1 :=
    Nat.exists_eq_succ_of_ne_zero (Nat.ne_of_gt Nat.length_toDigits_pos)
  have bounded : ∀ width, 0 < width → (digitCount number ≤ width ↔ number < 10 ^ width) :=
    fun width wide => Nat.length_toDigits_le_iff (by decide) wide
  refine ⟨fewer, counted, ?_, (bounded _ (Nat.succ_pos _)).mp counted.le⟩
  cases fewer with
  | zero => exact Nat.pos_of_ne_zero positive
  | succ fewer =>
    have longer : ¬ digitCount number ≤ fewer + 1 := by omega
    exact Nat.not_lt.mp ((bounded _ (Nat.succ_pos _)).not.mp longer)

end Decimal

namespace Numeral

/-- The fraction of a decimal, by the place of its first digit. -/
theorem fraction_eq (digits : Nat) (exponent : Int) {cut : Nat} (named : cut = 400) :
    fraction ⟨digits, exponent⟩ =
      if digits = 0 then (0, 1)
      else if (cut : Int) < Decimal.digitCount digits + exponent then (10 ^ cut, 1)
      else if Decimal.digitCount digits + exponent < -(cut : Int) then (1, 10 ^ cut)
      else (digits * 10 ^ exponent.toNat, 10 ^ (-exponent).toNat) := by
  have whole : (cut : Int) = 400 := congrArg Nat.cast named
  rw [fraction, ← named, ← whole]
  rfl

/-- The denominator of a decimal is not zero. -/
theorem fraction_proper (decimal : Decimal) : (fraction decimal).2 ≠ 0 := by
  have power : ∀ exponent : Nat, 10 ^ exponent ≠ 0 := fun exponent =>
    Nat.pos_iff_ne_zero.mp (Nat.pow_pos (by decide))
  obtain ⟨digits, exponent⟩ := decimal
  obtain ⟨cut, named⟩ : ∃ cut : Nat, cut = 400 := ⟨_, rfl⟩
  rw [fraction_eq digits exponent named]
  split_ifs
  · exact Nat.one_ne_zero
  · exact Nat.one_ne_zero
  · exact power _
  · exact power _

/-- Where the power of ten is cut off does not decide whether a decimal comes up to the limit. -/
theorem fraction_exceeds (decimal : Decimal) :
    Precision.limit * (fraction decimal).2 ≤ (fraction decimal).1 ↔ decimal.Exceeds := by
  obtain ⟨digits, exponent⟩ := decimal
  have positive := Precision.limit_pos
  have power : ∀ exponent : Nat, 0 < 10 ^ exponent := fun _ => Nat.pow_pos (by decide)
  obtain ⟨cut, named⟩ : ∃ cut : Nat, cut = 400 := ⟨_, rfl⟩
  have limit_le := Precision.limit_le named
  rw [fraction_eq digits exponent named, Decimal.Exceeds]
  by_cases zero : digits = 0
  · have nothing := Nat.mul_pos positive (power (-exponent).toNat)
    rw [if_pos zero, zero, Nat.zero_mul]
    dsimp only
    omega
  obtain ⟨fewer, counted, least, bound⟩ := Decimal.digitCount_spec zero
  rw [if_neg zero, counted]
  split_ifs with large small
  · -- The first digit stands beyond the cut before the point.
    refine iff_of_true ?_ ?_
    · rw [mul_one]
      exact limit_le
    · have places : cut + (-exponent).toNat ≤ fewer + exponent.toNat := by omega
      calc Precision.limit * 10 ^ (-exponent).toNat
        _ ≤ 10 ^ cut * 10 ^ (-exponent).toNat := Nat.mul_le_mul_right _ limit_le
        _ = 10 ^ (cut + (-exponent).toNat) := (pow_add _ _ _).symm
        _ ≤ 10 ^ (fewer + exponent.toNat) := Nat.pow_le_pow_right (by decide) places
        _ = 10 ^ fewer * 10 ^ exponent.toNat := pow_add _ _ _
        _ ≤ digits * 10 ^ exponent.toNat := Nat.mul_le_mul_right _ least
  · -- The first digit stands beyond the cut behind the point.
    refine iff_of_false (Nat.not_le.mpr ?_) (Nat.not_le.mpr ?_)
    · calc 1
        _ < 10 ^ cut := Nat.one_lt_pow (by omega) (by decide)
        _ ≤ Precision.limit * 10 ^ cut := Nat.le_mul_of_pos_left _ positive
    · have places : fewer + 1 + exponent.toNat ≤ (-exponent).toNat := by omega
      calc digits * 10 ^ exponent.toNat
        _ < 10 ^ (fewer + 1) * 10 ^ exponent.toNat := Nat.mul_lt_mul_of_pos_right bound (power _)
        _ = 10 ^ (fewer + 1 + exponent.toNat) := (pow_add _ _ _).symm
        _ ≤ 10 ^ (-exponent).toNat := Nat.pow_le_pow_right (by decide) places
        _ ≤ Precision.limit * 10 ^ (-exponent).toNat := Nat.le_mul_of_pos_left _ positive
  · rfl

/-- The text writes a number that is not finite: behind the sign stands a word for what is infinite or
undefined, or a decimal that comes up to the limit of the doubles. -/
def Boundless (text : String) : Prop :=
  (word? (splitSign text.toList).2).isSome = true ∨
    ∃ decimal, decimal? (splitSign text.toList).2 = some decimal ∧ decimal.Exceeds

/-- The number that a text writes is that of a word or the double nearest to a decimal. -/
theorem read?_cases {text : String} {number : Float} (read : read? text = some number) :
    (word? (splitSign text.toList).2).isSome = true ∧ isFiniteNumber number = false ∨
      word? (splitSign text.toList).2 = none ∧ ∃ decimal,
        decimal? (splitSign text.toList).2 = some decimal ∧
          number = Binary.nearest (splitSign text.toList).1 (fraction decimal).1
            (fraction decimal).2 := by
  rw [read?, readWith?] at read
  cases spelled : word? (splitSign text.toList).2 with
  | some word =>
    refine .inl ⟨rfl, ?_⟩
    simp only [spelled] at read
    cases word with
    | infinite =>
      obtain rfl := Option.some.inj read
      exact Binary.isFinite_infinity _
    | undefined =>
      obtain rfl := Option.some.inj read
      exact Binary.isFinite_undefined _
  | none =>
    simp only [spelled] at read
    obtain ⟨decimal, found, same⟩ := Option.map_eq_some_iff.mp read
    exact .inr ⟨rfl, decimal, found, same.symm⟩

/-- Of the texts that write a number, these write one that is not finite. -/
theorem boundless_iff {text : String} {number : Float} (read : read? text = some number) :
    Boundless text ↔ isFiniteNumber number = false := by
  rcases read?_cases read with ⟨spelled, boundless⟩ | ⟨unspelled, decimal, found, rfl⟩
  · exact iff_of_true (.inl spelled) boundless
  · rw [Boundless, unspelled, found, ← Bool.not_eq_true,
      Binary.isFinite_nearest (fraction_proper decimal), Nat.not_lt, fraction_exceeds]
    simp

/-- Every such text writes a number. -/
theorem read?_of_boundless {text : String} (boundless : Boundless text) :
    ∃ number, read? text = some number := by
  rw [read?, readWith?]
  cases spelled : word? (splitSign text.toList).2 with
  | some word =>
    simp only [spelled]
    cases word <;> exact ⟨_, rfl⟩
  | none =>
    rw [Boundless, spelled] at boundless
    obtain ⟨decimal, found, _⟩ := boundless.resolve_left nofun
    simp only [spelled, found]
    exact ⟨_, rfl⟩

end Numeral

namespace Kind

/-- The value is a text that writes no finite number, and is to be coerced to a number. -/
def Strays (kind : Kind) (value : Value) : Prop :=
  kind = .number ∧ ∃ text, value = .string text ∧ Numeral.Boundless (trimmed text)

/-- Coercion leaves a value as it is, or makes one other than null of the kind's own category that
passes the type check, or makes a number of a text that writes no finite one. -/
theorem cast_cases (kind : Kind) (value : Value) :
    kind.cast value = value ∨
      (kind.cast value ≠ .null ∧ kind.check (kind.cast value) = true ∧
        kind.accepts (kind.cast value).category = true) ∨
      kind.Strays value ∧ ∃ number, kind.cast value = .number number ∧
        isFiniteNumber number = false := by
  cases kind with
  | string =>
    cases value with
    | number | bool => exact .inr (.inl ⟨by simp [cast], rfl, rfl⟩)
    | _ => exact .inl rfl
  | number =>
    cases value with
    | string text =>
      cases read : Numeral.read? (trimmed text) with
      | none => exact .inl (by simp [cast, read])
      | some number =>
        have made : Kind.number.cast (.string text) = .number number := by simp [cast, read]
        rw [made]
        cases finite : isFiniteNumber number with
        | true => exact .inr (.inl ⟨by simp, finite, rfl⟩)
        | false =>
          have boundless := (Numeral.boundless_iff read).mpr finite
          exact .inr (.inr ⟨⟨rfl, text, rfl, boundless⟩, number, rfl, finite⟩)
    | bool truth => cases truth <;> exact .inr (.inl ⟨by simp [cast], rfl, rfl⟩)
    | _ => exact .inl rfl
  | boolean =>
    cases value with
    | string text =>
      by_cases affirmed : text = "true"
      · exact .inr (.inl (by simp [cast, affirmed, check, Value.bool?, accepts, Value.category]))
      · by_cases denied : text = "false"
        · exact .inr (.inl (by simp [cast, denied, check, Value.bool?, accepts, Value.category]))
        · exact .inl (by simp [cast, affirmed, denied])
    | number => exact .inr (.inl ⟨by simp [cast], rfl, rfl⟩)
    | _ => exact .inl rfl
  | date =>
    cases denoted : value.toInstant? with
    | none => exact .inl (by cases value <;> simp [cast, denoted])
    | some instant =>
      have made : Kind.date.cast value = .date instant := by cases value <;> simp_all [cast]
      rw [made]
      exact .inr (.inl ⟨by simp, rfl, rfl⟩)
  | _ => exact .inl rfl

/-- A text that writes no finite number is changed, and into one that is refused. -/
theorem Strays.cast {kind : Kind} {value : Value} (strays : kind.Strays value) :
    kind.cast value ≠ value ∧ kind.check (kind.cast value) = false := by
  obtain ⟨rfl, text, rfl, boundless⟩ := strays
  obtain ⟨number, read⟩ := Numeral.read?_of_boundless boundless
  have made : Kind.number.cast (.string text) = .number number := by simp [Kind.cast, read]
  rw [made]
  exact ⟨by simp, (Numeral.boundless_iff read).mp boundless⟩

end Kind

variable {κ : Type} {host : Host κ} {members : Members κ} {path : Path} {scope : Scope}

/-- Leniently, a schema of a kind and nothing else coerces every value. -/
theorem Body.validate_ofKind_lenient {kind : Kind} {value : Value}
    (lenient : scope.isStrict = false) :
    ((Body.ofKind kind).validate host members (some value) path scope).result? =
      some (some (kind.cast value)) := by
  by_cases absent : value = .null
  · subst absent
    have kept : kind.cast .null = .null := by cases kind <;> rfl
    rw [kept]
    refine validate_of_processed rfl (fun _ => by simp [lenient]) (fun defined => absurd rfl defined)
  · rw [result?_validate absent, lenient]
    rfl

/-- Every coercion lands inside its kind, texts that write no finite number apart: whatever else
coercion changes is accepted strictly by a schema of the kind and nothing else, as it left lenient
validation, and is of the category that the kind is made for. -/
theorem Schema.validateAt_lands (host : Host κ) (depth : Nat) (kind : Kind) (value : Value)
    (path : Path) (current root : Option Value) :
    let run := fun mode input =>
      ((built (Body.ofKind kind)).validateAt host (depth + 1) (some input) path
        ⟨current, root, mode⟩).result?
    (kind.cast value = value ∨ kind.check (kind.cast value) = true ↔ ¬ kind.Strays value) ∧
    run .lenient value = some (some (kind.cast value)) ∧
    (kind.cast value ≠ value → ¬ kind.Strays value →
      run .strict (kind.cast value) = some (some (kind.cast value)) ∧
        kind.accepts (kind.cast value).category = true) := by
  intro run
  refine ⟨⟨?_, fun settled => ?_⟩, Body.validate_ofKind_lenient rfl, fun changed settled => ?_⟩
  · rintro landed strays
    obtain ⟨changed, refused⟩ := strays.cast
    rcases landed with same | passed
    · exact changed same
    · exact Bool.false_ne_true (refused.symm.trans passed)
  · rcases kind.cast_cases value with same | ⟨_, passed, _⟩ | ⟨strays, _⟩
    · exact .inl same
    · exact .inr passed
    · exact absurd strays settled
  · rcases kind.cast_cases value with same | ⟨defined, passed, own⟩ | ⟨strays, _⟩
    · exact absurd same changed
    · refine ⟨(congrArg Run.result? (Body.validate_ofKind defined passed)).trans ?_, own⟩
      rw [Kind.cast_cast]
      rfl
    · exact absurd strays settled

/-- A text of a number with blanks around it becomes that number, which is accepted strictly. -/
theorem Schema.validateAt_lands_decimal :
    let run := fun mode input =>
      ((built (Body.ofKind .number : Body Unit)).validateAt events 1 (some input) .root
        ⟨none, none, mode⟩).result?
    Kind.number.cast (.string " 12.5 ") = .number 12.5 ∧ ¬ Kind.number.Strays (.string " 12.5 ") ∧
      run .lenient (.string " 12.5 ") = some (some (.number 12.5)) ∧
      run .strict (.number 12.5) = some (some (.number 12.5)) := by
  intro run
  have made : Kind.number.cast (.string " 12.5 ") = .number 12.5 := rfl
  obtain ⟨lands, coerced, accepted⟩ :=
    validateAt_lands events 0 .number (.string " 12.5 ") .root none none
  rw [made] at lands coerced accepted
  have settled := lands.mp (.inr rfl)
  exact ⟨made, settled, coerced, (accepted nofun settled).1⟩

/-- Not every value that coercion changes is accepted afterwards: the word for infinity becomes a
number that is refused. -/
theorem Schema.validateAt_lands_infinity :
    let made := Value.number (Binary.ofSignedBits false Binary.infinityBits)
    Kind.number.Strays (.string "inf") ∧ Kind.number.cast (.string "inf") = made ∧
      made ≠ .string "inf" ∧ Kind.number.check made = false ∧
      ((built (Body.ofKind .number : Body Unit)).validateAt events 1 (some (.string "inf")) .root
        (.new .lenient)).result? = some (some made) ∧
      ((built (Body.ofKind .number : Body Unit)).validateAt events 1 (some made) .root
        (.new .strict)).fault? = some (.located .root (.wrongKind .number)) :=
  ⟨⟨rfl, "inf", rfl, .inl rfl⟩, rfl, nofun, rfl, rfl, rfl⟩

end Assay
