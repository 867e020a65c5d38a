import Mathlib.Algebra.Group.Nat.Defs
import Mathlib.Data.List.Basic
import Assay.Json.Exchange
import Assay.Kind
import Assay.Value.Text
import Assay.Proofs.Acceptance
import Assay.Proofs.Calendar

/-!
# Timestamps read back

A timestamp writes each of its numbers to a width of its own and reads it back from there
(`Timestamp.number?_padded`), so reading a timestamp gives the instant that was written, without what
is finer than a millisecond (`Instant.ofText?_toText`). The sixtieth second is written of a leap
second only, and read as the full billion of nanoseconds on top that a leap second has. On top of any
other second a billion nanoseconds are written, and so read, as the next second (`Instant.onClock`).
-/
namespace Assay

namespace Timestamp

/-- A number that fits is written to the width. -/
theorem length_padded {width number : Nat} (wide : 0 < width) (fits : number < 10 ^ width) :
    (padded width number).length = width := by
  have short : (Nat.toDigits 10 number).length ≤ width :=
    (Nat.length_toDigits_le_iff (by decide) wide).mpr fits
  unfold padded
  rw [List.length_append, List.length_replicate]
  omega

/-- Only digits are written. -/
theorem isDigit_padded (width number : Nat) : (padded width number).all Numeral.isDigit = true := by
  have plain : ∀ char : Char, char.isDigit = true → Numeral.isDigit char = true := by
    intro char digit
    simpa [Char.isDigit, Numeral.isDigit, Char.le_def] using digit
  rw [List.all_eq_true]
  intro char written
  rcases List.mem_append.mp written with zero | digit
  · rw [List.eq_of_mem_replicate zero]
    decide
  · exact plain char (Nat.isDigit_of_mem_toDigits (by decide) (by decide) digit)

/-- The digits written have the value of the number. -/
theorem digitsValue_padded (width number : Nat) :
    Numeral.digitsValue (padded width number) = number := by
  change Nat.ofDigitChars 10 (padded width number) 0 = number
  unfold padded
  rw [Nat.ofDigitChars_append, Nat.ofDigitChars_replicate_zero, Nat.mul_zero,
    Nat.ofDigitChars_toDigits (by decide) (by decide)]

/-- What is written of a number reads back as the number. -/
theorem number?_padded (width number : Nat) : number? (padded width number) = some number := by
  unfold number?
  rw [if_pos (isDigit_padded width number), digitsValue_padded]

/-- Two digits. -/
theorem padded_two {number : Nat} (fits : number < 100) :
    ∃ tens ones, padded 2 number = [tens, ones] ∧ number? [tens, ones] = some number := by
  have written := length_padded (by decide : 0 < 2) fits
  obtain ⟨tens, ones, same⟩ := List.length_eq_two.mp written
  exact ⟨tens, ones, same, same ▸ number?_padded 2 number⟩

/-- Four digits. -/
theorem padded_four {number : Nat} (fits : number < 10000) :
    ∃ thousands hundreds tens ones, padded 4 number = [thousands, hundreds, tens, ones] ∧
      number? [thousands, hundreds, tens, ones] = some number := by
  have written := length_padded (by decide : 0 < 4) fits
  cases same : padded 4 number with
  | nil => simp [same] at written
  | cons thousands rest =>
    have shorter : rest.length = 3 := by simpa [same] using written
    obtain ⟨hundreds, tens, ones, rfl⟩ := List.length_eq_three.mp shorter
    exact ⟨thousands, hundreds, tens, ones, rfl, same ▸ number?_padded 4 number⟩

/-- Three decimal places read back as milliseconds, up to the closing letter. -/
theorem fraction?_padded {milliseconds : Nat} (fits : milliseconds < 1000) :
    fraction? ('.' :: (padded 3 milliseconds ++ ['Z'])) =
      some (milliseconds * 1000000, ['Z']) := by
  have width : (padded 3 milliseconds).length = 3 := length_padded (by decide) fits
  have digits : ∀ char ∈ padded 3 milliseconds, Numeral.isDigit char = true :=
    List.all_eq_true.mp (isDigit_padded 3 milliseconds)
  have split : Numeral.splitDigits (padded 3 milliseconds ++ ['Z']) =
      (padded 3 milliseconds, ['Z']) := by
    unfold Numeral.splitDigits
    rw [List.takeWhile_append_of_pos digits, List.dropWhile_append_of_pos digits]
    simp [Numeral.isDigit]
  have whole : (padded 3 milliseconds).take 9 = padded 3 milliseconds :=
    List.take_of_length_le (by omega)
  have filled : (padded 3 milliseconds).isEmpty = false := by
    cases same : padded 3 milliseconds with
    | nil => simp [same] at width
    | cons => rfl
  have value : nanosecondsOf (padded 3 milliseconds) = milliseconds * 1000000 := by
    unfold nanosecondsOf
    rw [whole, digitsValue_padded, width]
  simp only [fraction?, split, filled, value, Bool.false_eq_true, if_false]

/-- The text of a date and a time of day reads back as the instant. -/
theorem ofChars?_written {date : Day} {year hour minute second milliseconds : Nat}
    (dated : date.year = year) (recent : year ≤ 9999) (valid : date.isValid = true)
    (months : date.month < 100) (days : date.day < 100) (hours : hour ≤ 23) (minutes : minute ≤ 59)
    (seconds : second ≤ 60) (fits : milliseconds < 1000) :
    ofChars? (dayText date ++ 'T' :: (padded 2 hour ++ ':' :: padded 2 minute ++ ':' ::
        padded 2 second ++ '.' :: padded 3 milliseconds) ++ ['Z']) =
      some ⟨date.number * 86400 + (3600 * hour + 60 * minute + min second 59 : Nat),
        milliseconds * 1000000 + if second = 60 then 1000000000 else 0⟩ := by
  obtain ⟨y1, y2, y3, y4, years, readYear⟩ := padded_four (Nat.lt_succ_of_le recent)
  obtain ⟨mo1, mo2, writtenMonth, readMonth⟩ := padded_two months
  obtain ⟨d1, d2, writtenDay, readDay⟩ := padded_two days
  obtain ⟨h1, h2, writtenHour, readHour⟩ := padded_two (by omega : hour < 100)
  obtain ⟨mi1, mi2, writtenMinute, readMinute⟩ := padded_two (by omega : minute < 100)
  obtain ⟨s1, s2, writtenSecond, readSecond⟩ := padded_two (by omega : second < 100)
  have timed : secondOfDay? hour minute second = some (3600 * hour + 60 * minute + min second 59) :=
    if_pos ⟨hours, minutes, seconds⟩
  have yeared : yearText date.year = [y1, y2, y3, y4] := by
    unfold yearText
    rw [if_pos (by omega), dated, Int.toNat_natCast, years]
  have same : (⟨(year : Int), date.month, date.day⟩ : Day) = date := by rw [← dated]
  have universal : offset? ['Z'] = some 0 := rfl
  have separated : isSeparator 'T' = true := rfl
  unfold dayText
  rw [yeared, writtenMonth, writtenDay, writtenHour, writtenMinute, writtenSecond]
  simp only [List.cons_append, List.nil_append]
  unfold ofChars?
  simp only [readYear, readMonth, readDay, readHour, readMinute, readSecond, timed,
    fraction?_padded fits, universal, Option.bind_eq_bind, Option.bind_some, same, valid, separated,
    Bool.and_true, if_true, Int.sub_zero]

end Timestamp

namespace Instant

/-- The instant as a clock shows it: nanoseconds beyond the first billion belong to a leap second in
the last second of a minute, and to the next second in any other. -/
def onClock (instant : Instant) : Instant :=
  if instant.nanoseconds < 1000000000 ∨ instant.seconds % 60 = 59 then instant
  else ⟨instant.seconds + 1, instant.nanoseconds - 1000000000⟩

/-- The seconds that a clock shows. -/
theorem seconds_onClock (instant : Instant) : instant.onClock.seconds =
    if instant.nanoseconds < 1000000000 ∨ instant.seconds % 60 = 59 then instant.seconds
    else instant.seconds + 1 := by
  unfold onClock
  split <;> rfl

/-- The nanoseconds that a clock shows. -/
theorem nanoseconds_onClock (instant : Instant) : instant.onClock.nanoseconds =
    if instant.nanoseconds < 1000000000 ∨ instant.seconds % 60 = 59 then instant.nanoseconds
    else instant.nanoseconds - 1000000000 := by
  unfold onClock
  split <;> rfl

/-- The year of the instant in universal time. -/
def year (instant : Instant) : Int := (Day.ofNumber (instant.seconds / 86400)).year

/-- The text of an instant of a year of four digits denotes what a clock shows of the instant, without
what is finer than a millisecond. -/
theorem ofText?_toText {instant : Instant} (single : instant.nanoseconds < 2000000000)
    (since : 0 ≤ instant.year) (upTo : instant.year ≤ 9999) :
    ofText? instant.toText = some instant.onClock.toWholeMilliseconds := by
  have dated : (Day.ofNumber (instant.seconds / 86400)).year = (instant.year.toNat : Int) :=
    (Int.toNat_of_nonneg since).symm
  obtain ⟨months, days⟩ := Day.ofNumber_le (instant.seconds / 86400)
  have read := Timestamp.ofChars?_written dated (by omega)
    (Day.isValid_ofNumber (instant.seconds / 86400)) (by omega) (by omega)
    (by omega : (instant.seconds % 86400).toNat / 3600 ≤ 23)
    (by omega : (instant.seconds % 86400).toNat / 60 % 60 ≤ 59)
    (by omega : (instant.seconds % 86400).toNat % 60 + instant.nanoseconds / 1000000000 ≤ 60)
    (by omega : instant.nanoseconds % 1000000000 / 1000000 < 1000)
  rw [Day.number_ofNumber] at read
  unfold ofText? toText
  rw [String.toList_ofList]
  refine read.trans (congrArg some ?_)
  have seconds : instant.seconds / 86400 * 86400 +
      (3600 * ((instant.seconds % 86400).toNat / 3600) +
        60 * ((instant.seconds % 86400).toNat / 60 % 60) +
        min ((instant.seconds % 86400).toNat % 60 + instant.nanoseconds / 1000000000) 59 : Nat) =
      instant.onClock.seconds := by
    rw [seconds_onClock]
    split <;> omega
  have nanoseconds : instant.nanoseconds % 1000000000 / 1000000 * 1000000 +
      (if (instant.seconds % 86400).toNat % 60 + instant.nanoseconds / 1000000000 = 60 then
        1000000000 else 0) = instant.onClock.nanoseconds / 1000000 * 1000000 := by
    rw [nanoseconds_onClock]
    split <;> split <;> omega
  rw [seconds, nanoseconds]
  rfl

/-- What is finer than a millisecond is not written. -/
theorem toText_toWholeMilliseconds (instant : Instant) :
    instant.toWholeMilliseconds.toText = instant.toText := by
  have leap : instant.nanoseconds / 1000000 * 1000000 / 1000000000 =
      instant.nanoseconds / 1000000000 := by omega
  have places : instant.nanoseconds / 1000000 * 1000000 % 1000000000 / 1000000 =
      instant.nanoseconds % 1000000000 / 1000000 := by omega
  unfold toText Timestamp.chars Timestamp.timeText toWholeMilliseconds
  dsimp only
  rw [leap, places]

/-- An instant is written as a clock shows it. -/
theorem toText_onClock {instant : Instant} (single : instant.nanoseconds < 2000000000) :
    instant.onClock.toText = instant.toText := by
  unfold onClock
  split
  · rfl
  · have day : (instant.seconds + 1) / 86400 = instant.seconds / 86400 := by omega
    have hour : ((instant.seconds + 1) % 86400).toNat / 3600 =
        (instant.seconds % 86400).toNat / 3600 := by omega
    have minute : ((instant.seconds + 1) % 86400).toNat / 60 % 60 =
        (instant.seconds % 86400).toNat / 60 % 60 := by omega
    have second : ((instant.seconds + 1) % 86400).toNat % 60 +
        (instant.nanoseconds - 1000000000) / 1000000000 =
      (instant.seconds % 86400).toNat % 60 + instant.nanoseconds / 1000000000 := by omega
    have places : (instant.nanoseconds - 1000000000) % 1000000000 =
        instant.nanoseconds % 1000000000 := by omega
    unfold toText Timestamp.chars Timestamp.timeText
    dsimp only
    rw [day, hour, minute, second, places]

end Instant

/-- A date schema returns the instant that a value denotes. -/
theorem Schema.validateAt_date {κ : Type} (host : Host κ) (depth : Nat) {value : Value}
    {instant : Instant} (denoted : value.toInstant? = some instant) (path : Path) (scope : Scope) :
    ((Body.ofKind .date).schema.validateAt host (depth + 1) (some value) path scope).result? =
      some (some (.date instant)) := by
  have defined : value ≠ .null := by
    rintro rfl
    cases denoted
  have checked : Kind.date.check value = true := by
    change value.toInstant?.isSome = true
    rw [denoted]
    rfl
  have coerced : Kind.date.cast value = .date instant := by
    change (value.toInstant?.map Value.date).getD value = .date instant
    rw [denoted]
    rfl
  change ((Body.ofKind .date).validate host (membersAt host depth) (some value) path
    scope).result? = _
  rw [Body.validate_ofKind defined checked, coerced]
  rfl

/-- A date of a year of four digits is exported and shown as a text that denotes what a clock shows of
the date, without what is finer than a millisecond; a date schema returns that for the text, in every
mode, and it is exported and shown as the same text again. It is the date itself, leap seconds
included, unless a second other than the last one of a minute has a billion nanoseconds. -/
theorem Instant.toText_readsBack {κ : Type} (host : Host κ) (depth : Nat) (path : Path)
    (scope : Scope) (instant : Instant) (single : instant.nanoseconds < 2000000000)
    (since : 0 ≤ instant.year) (upTo : instant.year ≤ 9999) :
    let denoted := instant.onClock.toWholeMilliseconds
    Json.ofValue (.date instant) = .ok (.string instant.toText) ∧
    (Value.date instant).toText = instant.toText ∧
    (Value.date instant).nestedText = instant.toText ∧
    (Value.string instant.toText).toInstant? = some denoted ∧
    ((Body.ofKind .date).schema.validateAt host (depth + 1) (some (.string instant.toText)) path
      scope).result? = some (some (.date denoted)) ∧
    Json.ofValue (.date denoted) = .ok (.string instant.toText) ∧
    (Value.date denoted).toText = instant.toText ∧
    (instant.nanoseconds < 1000000000 ∨ instant.seconds % 60 = 59 →
      denoted = instant.toWholeMilliseconds) := by
  intro denoted
  have reads : (Value.string instant.toText).toInstant? = some denoted :=
    ofText?_toText single since upTo
  have again : denoted.toText = instant.toText :=
    (toText_toWholeMilliseconds _).trans (toText_onClock single)
  have exported : ∀ date : Instant, Json.ofValue (.date date) = .ok (.string date.toText) :=
    fun date => by simp only [Json.ofValue]
  have nested : ∀ date : Instant, (Value.date date).nestedText = date.toText :=
    fun date => by simp only [Value.nestedText]
  have shown : ∀ date : Instant, (Value.date date).toText = date.toText := nested
  refine ⟨exported instant, shown instant, nested instant, reads,
    Schema.validateAt_date host depth reads path scope, ?_, ?_, fun regular => ?_⟩
  · rw [exported, again]
  · rw [shown, again]
  · exact congrArg toWholeMilliseconds (if_pos regular)

/-- Half a second into the leap second that ended the year 2016. -/
def leapSecond : Instant := ⟨1483228799, 1500400000⟩

/-- A leap second is written with a sixtieth second and reads back as a leap second. -/
theorem Instant.toText_readsBack_leapSecond :
    leapSecond.nanoseconds < 2000000000 ∧ 0 ≤ leapSecond.year ∧ leapSecond.year ≤ 9999 ∧
      leapSecond.toText = "2016-12-31T23:59:60.500Z" ∧ leapSecond.seconds % 60 = 59 ∧
      (Value.string leapSecond.toText).toInstant? = some ⟨1483228799, 1500000000⟩ := by
  have since : 0 ≤ leapSecond.year := by decide
  have upTo : leapSecond.year ≤ 9999 := by decide
  obtain ⟨_, _, _, reads, _, _, _, same⟩ := toText_readsBack events 0 .root (.new .strict) leapSecond
    (by decide) since upTo
  rw [same (.inr rfl)] at reads
  exact ⟨by decide, since, upTo, by decide, rfl, reads⟩

/-- Not every date of a year of four digits reads back without what is finer than a millisecond: a
billion nanoseconds on top of the fifth second of 1970 are written as the sixth second. -/
theorem Instant.toText_readsBack_nextSecond :
    let instant : Instant := ⟨4, 1333333333⟩
    0 ≤ instant.year ∧ instant.year ≤ 9999 ∧
      Json.ofValue (.date instant) = .ok (.string "1970-01-01T00:00:05.333Z") ∧
      (Value.string "1970-01-01T00:00:05.333Z").toInstant? = some ⟨5, 333000000⟩ ∧
      ((Body.ofKind .date : Body Unit).schema.validateAt events 1
        (some (.string "1970-01-01T00:00:05.333Z")) .root (.new .strict)).result? =
          some (some (.date ⟨5, 333000000⟩)) ∧
      instant.toWholeMilliseconds = ⟨4, 1333000000⟩ := by
  intro instant
  have text : instant.toText = "1970-01-01T00:00:05.333Z" := by decide
  have reads : (Value.string "1970-01-01T00:00:05.333Z").toInstant? = some ⟨5, 333000000⟩ := by
    decide
  refine ⟨by decide, by decide, ?_, reads, Schema.validateAt_date events 0 reads .root _,
    by decide⟩
  rw [← text]
  simp only [Json.ofValue]

end Assay
